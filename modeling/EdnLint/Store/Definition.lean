import EdnLint.Schema.Shape
import EdnLint.Schema.Validation
import EdnLint.Store.Basic

/-!
# Checking definitions

A definition is a map. Its tags say what it is: tagged `zen/schema` it has to be
a well-formed schema, and tagged with the name of a schema it has to conform to
that schema. Tags are taken in the order of their names.
-/

namespace EdnLint

namespace Store

open Vocabulary

variable [Pattern.Engine]

/-- The names of a set of symbols, in order; none if there is anything else. -/
def symbolNames? : Datum → Option (List Text)
  | .set items => (items.mapM Key.symbol?).map fun names => names.mergeSort Text.le
  | _ => none

/-- Whether the tags of a definition mark it as a schema. A value that counts as
nothing holds no tags; asking anything else that has no members is a fault. -/
def marksSchema : Datum → Except Fault Bool
  | .atom .nil => .ok false
  | .atom (.bool false) => .ok false
  | .atom (.number n) => if n.isZero then .ok false else .error .notContainer
  | .atom (.string []) => .ok false
  | .atom _ => .error .notContainer
  | .vector items => .ok (items.any fun d => d.symbol? == some schemaTag)
  | .set items => .ok ((Key.symbol schemaTag).isIn items)
  | .map entries => .ok (Key.lookup? (.symbol schemaTag) entries).isSome

/-- What a tag asks of a definition in the namespace `ns`. -/
def checkTag (s : Store) (ns : Text) (entries : List (Key × Datum)) (tag : Text) : Report :=
  if tag = schemaTag then Shape.check [] (.map entries)
  else if tag = plainTag then .none
  else
    match s.definition? ns tag with
    | none => .problem (.unresolvedTag tag) [.keyword tags]
    | some (.map schema) =>
        match marksSchema (Datum.field schema tags) with
        | .error fault => .stopped fault
        | .ok true => (Schema.ofDatum (.map schema)).validate true [] (.map entries)
        | .ok false => .none
    | some _ => .none

/-- What is wrong with a definition, by paths from the definition. -/
def checkBody (s : Store) (ns : Text) (definition : Datum) : Report :=
  match definition with
  | .map entries =>
      let tagged := Datum.field entries tags
      if tagged.isNil then .none
      else
        match symbolNames? tagged with
        | none => .problem .tagsNotSymbols [.keyword tags]
        | some names => Report.all (names.map (s.checkTag ns entries))
  | d => .problem (.notDefinition d.typeName) []

/-- What is wrong with an entry of the namespace `ns`. -/
def checkEntry (s : Store) (ns : Text) (key : Key) (d : Datum) : Report :=
  if key.same Vocabulary.ns || key.same imports then .none
  else
    match key.symbol? with
    | none => .problem (.definitionName key.typeName) [key]
    | some name => (s.checkBody ns d).under (Name.qualify ns name)

end Store

end EdnLint
