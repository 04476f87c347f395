import EdnLint.Text.Printable

/-!
# Quoted texts

A quoted text stands between single quotes, or between double quotes if it holds
a single quote and no double one. The quote in use and the backslash are escaped,
line feed, carriage return and tab have letters of their own, and every other
code point that does not print is written as a hexadecimal number of two, four
or eight digits.
-/

namespace EdnLint

namespace Text

/-- The lowest `width` hexadecimal digits of a number. -/
def hexDigits (width n : Nat) : Text :=
  let digits := (Nat.toDigits 16 n).map CodePoint.ofChar
  zeros (width - digits.length) ++ digits

/-- One code point inside quotes. -/
def escapeIn (quote c : CodePoint) : Text :=
  if c = quote || c = '\\' then ['\\', c]
  else if c = '\n' then "\\n"
  else if c = '\r' then "\\r"
  else if c = '\t' then "\\t"
  else if c.isPrintable then [c]
  else if c.val < 0x100 then ("\\x" : Text) ++ hexDigits 2 c.val
  else if c.val < 0x10000 then ("\\u" : Text) ++ hexDigits 4 c.val
  else ("\\U" : Text) ++ hexDigits 8 c.val

/-- The quotation mark a text is put between. -/
def quoteFor (t : Text) : CodePoint :=
  if t.contains (CodePoint.ofChar '\'') && !t.contains (CodePoint.ofChar '"') then '"' else '\''

/-- The text between quotation marks. -/
def quoted (t : Text) : Text :=
  let quote := quoteFor t
  quote :: t.flatMap (escapeIn quote) ++ [quote]

/-- The items of a sequence between round brackets; a single one keeps a comma. -/
def tupled : List Text → Text
  | [item] => ("(" : Text) ++ item ++ ",)"
  | items => ("(" : Text) ++ join ", " items ++ ")"

end Text

end EdnLint
