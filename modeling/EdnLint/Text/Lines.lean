import EdnLint.Text.Basic

/-!
# Lines of a text

A line ends at a line feed, and one carriage return right before it belongs to
the line end. `lines` has one entry more than the text has line feeds, and
`charAt?` reads the grid it makes with indices from zero.
-/

namespace EdnLint

namespace Text

/-- The line without the carriage return that ends it, if one does. -/
def dropLineReturn : Text → Text
  | [] => []
  | [c] => if c = '\r' then [] else [c]
  | c :: t => c :: dropLineReturn t

/-- All pieces but the last ended at a line feed. -/
def dropLineReturns : List Text → List Text
  | [] => []
  | [last] => [last]
  | line :: lines => dropLineReturn line :: dropLineReturns lines

/-- The lines of a text without their ends. -/
def lines (t : Text) : List Text :=
  dropLineReturns (splitOn '\n' t)

/-- The code point at a line and column counted from zero; a negative index is
off the grid. -/
def charAt? (lines : List Text) : Int → Int → Option CodePoint
  | .ofNat line, .ofNat col => lines[line]?.bind fun l => l[col]?
  | _, _ => none

@[simp] theorem length_dropLineReturns (ls : List Text) :
    (dropLineReturns ls).length = ls.length := by
  induction ls with
  | nil => rfl
  | cons l ls ih =>
      cases ls with
      | nil => rfl
      | cons m ls => simpa [dropLineReturns] using ih

end Text

end EdnLint
