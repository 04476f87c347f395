import EdnLint.Members
import EdnLint.Number.Binary64

/-!
# JSON values

Settings reach a session as JSON. Objects keep their members in order, and a
number is an integer or a float by the way it is written.
-/

namespace EdnLint

/-- A JSON value. -/
inductive Json where
  | null
  | bool (b : Bool)
  | int (n : Int)
  | float (x : Binary64)
  | string (t : Text)
  | array (items : List Json)
  | object (members : List (Text × Json))
  deriving Repr

namespace Json

instance : Inhabited Json := ⟨.null⟩

/-- The member of an object under a name. -/
def get? (name : Text) : Json → Option Json
  | .object members => Members.get? name members
  | _ => none

end Json

end EdnLint
