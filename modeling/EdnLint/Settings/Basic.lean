import EdnLint.Fault
import EdnLint.Json.Basic
import EdnLint.Number.Basic
import EdnLint.Settings.Moment
import EdnLint.Text.Quoted

/-!
# Settings

A setting is a value from a configuration file or from the client. Most settings
are only looked at for their type; where a text is wanted and another value stands,
the value is written out: `plain` by itself, `detailed` inside an array or a table.
-/

namespace EdnLint

/-- A value of a configuration. -/
inductive Setting where
  | null
  | bool (b : Bool)
  | int (n : Int)
  | float (x : Binary64)
  | string (t : Text)
  | moment (m : Moment)
  | array (items : List Setting)
  | table (members : List (Text × Setting))
  deriving Repr

namespace Setting

instance : Inhabited Setting := ⟨.null⟩

mutual

/-- The setting that a JSON value makes. -/
def ofJson : Json → Setting
  | .null => .null
  | .bool b => .bool b
  | .int n => .int n
  | .float x => .float x
  | .string t => .string t
  | .array items => .array (ofJsonItems items)
  | .object members => .table (ofJsonMembers members)

/-- The settings of the items of an array. -/
def ofJsonItems : List Json → List Setting
  | [] => []
  | j :: js => ofJson j :: ofJsonItems js

/-- The settings of the members of an object. -/
def ofJsonMembers : List (Text × Json) → List (Text × Setting)
  | [] => []
  | (name, j) :: members => (name, ofJson j) :: ofJsonMembers members

end

/-- The member of a table under a name. -/
def get? (name : Text) : Setting → Option Setting
  | .table members => Members.get? name members
  | _ => none

/-- The text of a string. -/
def string? : Setting → Option Text
  | .string t => some t
  | _ => none

/-- The items of an array. -/
def array? : Setting → Option (List Setting)
  | .array items => some items
  | _ => none

mutual

/-- The setting inside an array or a table. -/
def detailed : Setting → Except Fault Text
  | .null => .ok "None"
  | .bool b => .ok (if b then "True" else "False")
  | .int n => Number.intText n
  | .float x => .ok x.text
  | .string t => .ok t.quoted
  | .moment m => .ok m.detailed
  | .array items => do return ("[" : Text) ++ Text.join ", " (← detailedItems items) ++ "]"
  | .table members => do
      return ("\x7b" : Text) ++ Text.join ", " (← detailedMembers members) ++ "\x7d"

/-- The items of an array as they stand inside it. -/
def detailedItems : List Setting → Except Fault (List Text)
  | [] => .ok []
  | s :: ss => do
      let shown ← detailed s
      return shown :: (← detailedItems ss)

/-- The members of a table as they stand inside it. -/
def detailedMembers : List (Text × Setting) → Except Fault (List Text)
  | [] => .ok []
  | (name, s) :: members => do
      let shown ← detailed s
      return (name.quoted ++ ": " ++ shown) :: (← detailedMembers members)

end

/-- The setting by itself. -/
def plain : Setting → Except Fault Text
  | .string t => .ok t
  | .moment m => .ok m.text
  | s => s.detailed

end Setting

end EdnLint
