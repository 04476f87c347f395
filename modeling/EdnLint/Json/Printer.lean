import EdnLint.Json.Basic
import EdnLint.Text.Quoted

/-!
# Writing JSON

The text of a value has no white space and holds ASCII only: every other code
point is written as its UTF-16 units.
-/

namespace EdnLint

namespace Json

/-- One UTF-16 unit as an escape. -/
def unitText (n : Nat) : Text := ("\\u" : Text) ++ Text.hexDigits 4 n

/-- A code point inside a JSON string. -/
def escaped (c : CodePoint) : Text :=
  if c = '"' || c = '\\' then ['\\', c]
  else if c.within 32 126 then [c]
  else if c = '\n' then "\\n"
  else if c = '\r' then "\\r"
  else if c = '\t' then "\\t"
  else if c = CodePoint.ofChar '\x08' then "\\b"
  else if c = CodePoint.ofChar '\x0c' then "\\f"
  else if c.val < 0x10000 then unitText c.val
  else
    unitText (0xD800 + (c.val - 0x10000) / 0x400) ++ unitText (0xDC00 + (c.val - 0x10000) % 0x400)

/-- A text as a JSON string. -/
def stringText (t : Text) : Text :=
  CodePoint.ofChar '"' :: t.flatMap escaped ++ [CodePoint.ofChar '"']

mutual

/-- The text of a value. -/
def render : Json → Text
  | .null => "null"
  | .bool b => if b then "true" else "false"
  | .int n => Text.ofInt n
  | .float x => x.text
  | .string t => stringText t
  | .array items => ("[" : Text) ++ Text.join "," (renderAll items) ++ "]"
  | .object members => ("\x7b" : Text) ++ Text.join "," (renderMembers members) ++ "\x7d"

/-- The texts of the items of an array. -/
def renderAll : List Json → List Text
  | [] => []
  | v :: vs => render v :: renderAll vs

/-- The texts of the members of an object. -/
def renderMembers : List (Text × Json) → List Text
  | [] => []
  | (name, v) :: members =>
      (stringText name ++ CodePoint.ofChar ':' :: render v) :: renderMembers members

end

end Json

end EdnLint
