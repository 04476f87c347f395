import EdnLint.Datum.Basic

/-!
# The words of schemas

The types a schema can have, and the keywords each of them takes. Keywords
qualified by `zen` are annotations and belong to no type.
-/

namespace EdnLint

namespace Vocabulary

def ns : Key := .symbol "ns"
def imports : Key := .symbol "import"
def tags : Text := "zen/tags"
def schemaTag : Text := "zen/schema"
def plainTag : Text := "zen/tag"
def type : Text := "type"
def keys : Text := "keys"
def require : Text := "require"
def values : Text := "values"
def validationType : Text := "validation-type"
def every : Text := "every"
def min : Text := "min"
def max : Text := "max"
def minLength : Text := "minLength"
def maxLength : Text := "maxLength"
def regex : Text := "regex"
def minItems : Text := "minItems"
def maxItems : Text := "maxItems"
def enum : Text := "enum"

/-- An annotation is a keyword qualified by `zen`. -/
def isAnnotation (key : Key) : Bool :=
  match key.keyword? with
  | some name => Name.qualifier? name == some ("zen" : Text)
  | none => false

/-- The namespace a datum declares: the symbol its entry `ns` holds. -/
def declared? : Datum → Option Text
  | .map entries => (Key.lookup? ns entries).bind Datum.symbol?
  | _ => none

end Vocabulary

/-- The types of schemas. -/
inductive SchemaType where
  | map
  | vector
  | set
  | string
  | integer
  | number
  | boolean
  | keyword
  | symbol
  | any
  deriving DecidableEq, Repr

namespace SchemaType

/-- The name of a type in messages. -/
def name : SchemaType → Text
  | .map => "map"
  | .vector => "vector"
  | .set => "set"
  | .string => "string"
  | .integer => "integer"
  | .number => "number"
  | .boolean => "boolean"
  | .keyword => "keyword"
  | .symbol => "symbol"
  | .any => "any"

/-- All types. -/
def list : List SchemaType :=
  [.map, .vector, .set, .string, .integer, .number, .boolean, .keyword, .symbol, .any]

/-- The type that a symbol names: the type's name qualified by `zen`. -/
def ofSymbol? (symbol : Text) : Option SchemaType :=
  list.find? fun t => Name.qualify "zen" t.name == symbol

/-- The type that a datum names. -/
def ofDatum? (d : Datum) : Option SchemaType := d.symbol?.bind ofSymbol?

open Vocabulary in
/-- The keywords a type takes, beside its own and the annotations. -/
def fields : SchemaType → List Text
  | .map => [keys, require, values, validationType]
  | .vector => [every, minItems, maxItems]
  | .set => [every]
  | .string => [minLength, maxLength, regex]
  | .integer => [min, max]
  | .number => [min, max]
  | .keyword => [enum]
  | .boolean => []
  | .symbol => []
  | .any => []

/-- Whether a datum is of a type. A truth value is no number, an integer is one. -/
def admits (t : SchemaType) (d : Datum) : Bool :=
  match t with
  | .any => true
  | .number => d.typeName == ("integer" : Text) || d.typeName == ("number" : Text)
  | t => d.typeName == t.name

end SchemaType

end EdnLint
