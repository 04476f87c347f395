import EdnLint.Pattern.Engine
import EdnLint.Schema.Basic
import EdnLint.Schema.Report

/-!
# Validation

`Schema.validate` reports where a value departs from a schema. The recursion is
on the schema. Paths lead into maps by key and into vectors by index; the members
of a set have no place of their own, so inside a set the path stays and vectors
are not indexed either, which `indexed` keeps track of.
-/

namespace EdnLint

namespace Schema

open Vocabulary

variable [Pattern.Engine]

/-- A report on a value of the right type, or that the type is wrong. -/
def typed (t : SchemaType) (path : List Key) (v : Datum) (report : Report) : Report :=
  if t.admits v then report else .problem (.wrongType t.name v.typeName) path

/-- A number is within its limits. -/
def limits (low high : Option Bound) (path : List Key) (value : Atom) : Report :=
  match value with
  | .number n =>
      let tooLow := match low with
        | some b => Report.whenOk (n.less b.value) (.tooSmall b.written value) path
        | none => .none
      let tooHigh := match high with
        | some b => Report.whenOk (b.value.less n) (.tooLarge b.written value) path
        | none => .none
      tooLow.andThen tooHigh
  | _ => .none

/-- A count is within its limits; `few` and `many` say what is wrong if not. -/
def countLimits (low high : Option Bound) (few many : Atom → Nat → Problem) (path : List Key)
    (count : Nat) : Report :=
  let tooFew := match low with
    | some b => Report.when (b.above count) (few b.written count) path
    | none => .none
  let tooMany := match high with
    | some b => Report.when (b.below count) (many b.written count) path
    | none => .none
  tooFew.andThen tooMany

/-- A string matches a pattern somewhere. A pattern that cannot be read is reported
with its schema and not here. -/
def matching (pattern : Option Text) (path : List Key) (value : Text) : Report :=
  match pattern with
  | none => .none
  | some pattern =>
      match Pattern.Engine.read pattern with
      | .ok isFound => Report.when (!isFound value) (.noMatch pattern) path
      | .error (.error _) => .none
      | .error (.fault fault) => .stopped fault

/-- The texts of keys, each with its key. -/
def named (keys : List Key) : Except Fault (List (Text × Key)) :=
  keys.mapM fun k => do return (← k.plain, k)

/-- Every required key is there, in the order of their texts. -/
def requiredKeys (required : List Key) (path : List Key) (entries : List (Key × Datum)) : Report :=
  match named required with
  | .error fault => .stopped fault
  | .ok named =>
      Report.all ((named.mergeSort fun a b => Text.le a.1 b.1).map fun (_, k) =>
        Report.when (Key.lookup? k entries).isNone (.keyMissing k) path)

/-- The place of an item, if items have places here. -/
def step (indexed : Bool) (path : List Key) (i : Nat) : List Key :=
  if indexed then path ++ [.index i] else path

/-- Items checked one by one, counted from `i`. -/
def eachFrom (check : List Key → Datum → Report) (indexed : Bool) (path : List Key) :
    (i : Nat) → List Datum → Report
  | _, [] => .none
  | i, d :: ds => (check (step indexed path i) d).andThen (eachFrom check indexed path (i + 1) ds)

mutual

/-- Where a value departs from a schema. -/
def validate (indexed : Bool) (path : List Key) : Schema → Datum → Report
  | .absent, _ => .none
  | .broken, _ => .none
  | .any, _ => .none
  | .boolean, v => typed .boolean path v .none
  | .symbol, v => typed .symbol path v .none
  | .integer low high, v =>
      typed .integer path v (match v with
        | .atom a => limits low high path a
        | _ => .none)
  | .number low high, v =>
      typed .number path v (match v with
        | .atom a => limits low high path a
        | _ => .none)
  | .string low high pattern, v =>
      typed .string path v (match v with
        | .atom (.string t) =>
            (countLimits low high .tooShort .tooLong path t.length).andThen
              (matching pattern path t)
        | _ => .none)
  | .keyword choices, v =>
      typed .keyword path v (match choices, v with
        | some choices, .atom (.keyword name) =>
            Report.when (!choices.admits name) (.notAmong choices name) path
        | _, _ => .none)
  | .vector low high every, v =>
      typed .vector path v (match v with
        | .vector items =>
            (countLimits low high .tooFewItems .tooManyItems path items.length).andThen
              (eachFrom (fun path d => validate indexed path every d) indexed path 0 items)
        | _ => .none)
  | .set low high every, v =>
      typed .set path v (match v with
        | .set items =>
            (countLimits low high .tooFewItems .tooManyItems path items.length).andThen
              (eachFrom (fun path d => validate false path every d) false path 0
                (Datum.ofKeys items))
        | _ => .none)
  | .map required keys values closed, v =>
      typed .map path v (match v with
        | .map entries =>
            (requiredKeys required path entries).andThen
              (Report.all (entries.map fun (k, d) =>
                let path := path ++ [k]
                match validateUnder indexed path k keys d with
                | some report => report
                | none =>
                    if values.isPresent then validate indexed path values d
                    else
                      let known := (Key.lookup? k keys).isSome || isAnnotation k
                      Report.when (closed && !known) (.unknownKey k) path))
        | _ => .none)

/-- Where the value of a key departs from the key's schema, if the table has one. -/
def validateUnder (indexed : Bool) (path : List Key) (key : Key) :
    List (Key × Schema) → Datum → Option Report
  | [], _ => none
  | (k, s) :: keys, d =>
      if key.same k then (if s.isPresent then some (validate indexed path s d) else none)
      else validateUnder indexed path key keys d

end

end Schema

end EdnLint
