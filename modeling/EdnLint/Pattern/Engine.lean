import EdnLint.Pattern.Matcher
import EdnLint.Pattern.Reader

/-!
# Pattern engines

The checks ask two things of a pattern: whether it can be read, and whether it is found
in a text. A pattern engine answers both, and the checks are made for any engine. The
library has one of its own, which needs to be told the names of code points.
-/

namespace EdnLint

namespace Pattern

/-- What reads patterns. A pattern that can be read answers for each text whether it is
found there. -/
class Engine where
  read : Text → Except Failure (Text → Bool)

/-- The library's own engine over a table of names of code points. -/
@[reducible] def Engine.own (characters : Text → Option Nat) : Engine where
  read text := (parse characters text).map found

/-- Where no engine is chosen it is the library's own, and no code point has a name. -/
instance : Engine := .own fun _ => none

end Pattern

end EdnLint
