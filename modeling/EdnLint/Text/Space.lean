import EdnLint.Text.Basic

/-!
# White space

The white space of every script, the four ASCII separators included. What
separates the forms of a document is a smaller set, which the reader defines.
-/

namespace EdnLint

namespace CodePoint

/-- The ranges of white space. -/
def spaces : List (Nat × Nat) :=
  [(9,13), (28,32), (133,133), (160,160), (0x1680,0x1680), (0x2000,0x200A), (0x2028,0x2029),
   (0x202F,0x202F), (0x205F,0x205F), (0x3000,0x3000)]

/-- Whether the code point is white space. -/
def isSpace (c : CodePoint) : Bool :=
  spaces.any fun (lo, hi) => c.within lo hi

end CodePoint

end EdnLint
