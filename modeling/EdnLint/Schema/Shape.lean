import EdnLint.Pattern.Engine
import EdnLint.Schema.Report
import EdnLint.Schema.Vocabulary

/-!
# Well-formed schemas

`Shape.check` reports what is wrong with a datum that is meant as a schema: its
type, keys its type does not take, and the schemas inside it. It goes down the
datum itself, looking up a field by going through the entries, so the recursion
is structural. The path of an issue leads through the fields of the schema.
-/

namespace EdnLint

namespace Shape

open Vocabulary

variable [Pattern.Engine]

/-- Keys that neither the type takes nor are annotations. -/
def unknownFields (t : SchemaType) (path : List Key) (entries : List (Key × Datum)) : Report :=
  Report.all (entries.map fun (key, _) =>
    let known := key.same (.keyword type) || isAnnotation key || key.isIn (t.fields.map .keyword)
    Report.when (!known) (.unknownKey key) (path ++ [key]))

/-- The required keys are a set of keywords. -/
def requireField (path : List Key) (d : Datum) : Report :=
  match d with
  | .atom .nil => .none
  | .set items => Report.when (items.any fun k => k.keyword?.isNone) .requireNotKeywords path
  | _ => .problem .requireNotKeywords path

/-- A pattern can be read. -/
def regexField (path : List Key) (d : Datum) : Report :=
  match d with
  | .atom (.string pattern) =>
      match Pattern.Engine.read pattern with
      | .ok _ => .none
      | .error (.error e) => .problem (.invalidPattern (e.text pattern)) path
      | .error (.fault fault) => .stopped fault
  | _ => .none

mutual

/-- What is wrong with a datum as a schema. -/
def check (path : List Key) : Datum → Report
  | .map entries =>
      let typed := Datum.field entries type
      if typed.isNil then .problem .typeMissing (path ++ [.keyword type])
      else
        match SchemaType.ofDatum? typed with
        | none => .problem (.unknownType typed) (path ++ [.keyword type])
        | some t =>
            Report.all [
              unknownFields t path entries,
              checkKeys (path ++ [.keyword keys]) entries,
              requireField (path ++ [.keyword require]) (Datum.field entries require),
              checkField values (path ++ [.keyword values]) entries,
              checkField every (path ++ [.keyword every]) entries,
              regexField (path ++ [.keyword regex]) (Datum.field entries regex)]
  | d => .problem (.notSchema d.typeName) path

/-- What is wrong with the schema in a field, if the field is there. -/
def checkField (name : Text) (path : List Key) : List (Key × Datum) → Report
  | [] => .none
  | (k, d) :: entries =>
      if (Key.keyword name).same k then check path d else checkField name path entries

/-- What is wrong with the table of keys, if there is one. -/
def checkKeys (path : List Key) : List (Key × Datum) → Report
  | [] => .none
  | (k, d) :: entries =>
      if (Key.keyword keys).same k then checkTable path d else checkKeys path entries

/-- What is wrong with a datum as a table of keys. -/
def checkTable (path : List Key) : Datum → Report
  | .map entries => checkRows path entries
  | .atom .nil => .none
  | _ => .problem .keysNotMap path

/-- What is wrong with the rows of a table of keys. -/
def checkRows (path : List Key) : List (Key × Datum) → Report
  | [] => .none
  | (k, d) :: entries =>
      (if k.keyword?.isSome then check (path ++ [k]) d
        else .problem (.keyNotKeyword k.typeName) (path ++ [k])).andThen (checkRows path entries)

end

end Shape

end EdnLint
