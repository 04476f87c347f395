import EdnLint.Toml.Draft
import EdnLint.Toml.Scalar
import EdnLint.Toml.Text

/-!
# Reading TOML

A document is read statement by statement into a draft. Values nest, and every
level of nesting takes at least one code point, so the length of the text bounds
the descent; `parse` starts it with enough fuel and shows none.
-/

namespace EdnLint

namespace Toml

/-- What a reader of causes says about the text still to be read. -/
def atRest {α : Type} (rest : Text) (result : Except Cause α) : Except Stop α :=
  result.mapError fun cause => .error cause rest

/-- A value that does not hold others. -/
def scalar (t : Text) : Except Stop (Setting × Text) :=
  match moment? t with
  | some (result, rest) => do return (← atRest t result, rest)
  | none =>
      match number? t with
      | some (result, rest) => do return (← result.mapError .fault, rest)
      | none =>
          match special? t with
          | some found => .ok found
          | none => refuse .value t

/-- The text behind white space and comments over several lines. -/
def skipLines (t : Text) : Except Stop Text := skipSpace (t.length + 1) t

/-- The text behind the equals sign of a pair, and behind the blanks that follow. -/
def equals (t : Text) : Except Stop Text :=
  match t with
  | [] => refuse .noEquals []
  | c :: u => if c = '=' then .ok (skipBlanks u) else refuse .noEquals t

mutual

/-- A value. -/
def value : (fuel : Nat) → Text → Except Stop (Setting × Text)
  | 0, t => refuse .value t
  | _ + 1, [] => refuse .value []
  | fuel + 1, c :: t =>
      if c = '"' || c = '\'' then do
        let (s, t) ← string c t
        return (.string s, t)
      else if ("true" : Text).isPrefixOf (c :: t) then .ok (.bool true, t.drop 3)
      else if ("false" : Text).isPrefixOf (c :: t) then .ok (.bool false, t.drop 4)
      else if c = '[' then do
        let t ← skipLines t
        let (items, t) ← arrayItems fuel t
        return (.array items, t)
      else if c = '{' then do
        let t := skipBlanks t
        if t.head? = some (CodePoint.ofChar '}') then return (.table [], t.tail)
        let (members, t) ← inlinePairs fuel .empty t
        return (.table members, t)
      else scalar (c :: t)

/-- The items of an array up to its closing bracket. A comma may stand behind the
last one. -/
def arrayItems : (fuel : Nat) → Text → Except Stop (List Setting × Text)
  | 0, t => refuse .openArray t
  | fuel + 1, t =>
      if t.head? = some (CodePoint.ofChar ']') then .ok ([], t.tail)
      else do
        let (item, t) ← value fuel t
        match ← skipLines t with
        | [] => refuse .openArray []
        | c :: t =>
            if c = ']' then return ([item], t)
            else if c = ',' then
              let t ← skipLines t
              let (items, t) ← arrayItems fuel t
              return (item :: items, t)
            else refuse .openArray (c :: t)

/-- The pairs of an inline table up to its closing brace. -/
def inlinePairs : (fuel : Nat) → InlineDraft → Text → Except Stop (List (Text × Setting) × Text)
  | 0, _, t => refuse .openTable t
  | fuel + 1, d, t => do
      let (key, t) ← key t
      let t ← equals t
      let (v, t) ← value fuel t
      let d ← atRest t (d.addPair key v)
      match skipBlanks t with
      | [] => refuse .openTable []
      | c :: t =>
          if c = '}' then return (d.members, t)
          else if c = ',' then inlinePairs fuel d (skipBlanks t)
          else refuse .openTable (c :: t)

end

/-- Adds a pair to the draft. -/
def pair (d : Draft) (t : Text) : Except Stop (Draft × Text) := do
  let (key, t) ← key t
  let t ← equals t
  let (v, t) ← value (2 * t.length + 2) t
  return (← atRest t (d.addPair key v), skipBlanks t)

/-- Opens a table or a table of an array, read behind the first bracket. -/
def header (d : Draft) (t : Text) : Except Stop (Draft × Text) := do
  let d := d.endSection
  let isItem := t.head? = some (CodePoint.ofChar '[')
  let (key, t) ← key (skipBlanks (if isItem then t.tail else t))
  let d ← atRest t (if isItem then d.openItem key else d.openTable key)
  let close : Text := if isItem then "]]" else "]"
  if close.isPrefixOf t then return (d, skipBlanks (t.drop close.length))
  else refuse (if isItem then .arrayEnd else .tableEnd) t

/-- A statement that starts with the character in front. A comment is none. -/
def statement (d : Draft) (t : Text) : Except Stop (Draft × Text) :=
  match t with
  | [] => .ok (d, [])
  | c :: u =>
      if isBare c || c = '"' || c = '\'' then pair d t
      else if c = '[' then header d u
      else if c = '#' then .ok (d, t)
      else refuse .statement t

/-- Reads statements to the end of the text. `fuel` bounds the number of lines. -/
def statements : (fuel : Nat) → Draft → Text → Except Stop Draft
  | 0, d, _ => .ok d
  | fuel + 1, d, t =>
      match skipBlanks t with
      | [] => .ok d
      | c :: t =>
          if c = '\n' then statements fuel d t
          else do
            let (d, t) ← statement d (c :: t)
            match ← skipComment t with
            | [] => return d
            | c :: t => if c = '\n' then statements fuel d t else refuse .trailing (c :: t)

/-- The members of a document. -/
def parse (t : Text) : Except Stop (List (Text × Setting)) :=
  (statements (t.length + 1) .empty t).map fun d => d.members

end Toml

end EdnLint
