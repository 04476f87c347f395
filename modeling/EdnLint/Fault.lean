/-!
# Faults

A fault is a failure that no part of the library explains to the user: the
operation stops, and only the lint cycle and the session keep it from going
further. Errors with a message and a place, such as a document that does not
read, are not faults.
-/

namespace EdnLint

/-- Why an operation stopped without an answer. -/
inductive Fault where
  /-- An integer has more decimal digits than are converted. -/
  | digitLimit
  /-- A decimal's exponent is out of range. -/
  | decimalRange
  /-- A decimal was ordered against a float that is not a number. -/
  | unordered
  /-- Membership was asked of a value that holds no members. -/
  | notContainer
  /-- A pattern repeats more often than can be counted. -/
  | repeatLimit
  /-- A pattern asks for two alphabets at once. -/
  | flagConflict
  /-- A file is not UTF-8. -/
  | undecodable
  /-- A path holds the null character. -/
  | nullInPath
  /-- A path holds a surrogate that stands for no byte. -/
  | unencodable
  /-- A name, or a whole path, is longer than the system takes. -/
  | nameTooLong
  /-- A directory on the way may not be entered. -/
  | denied
  /-- A resource identifier has no readable authority. -/
  | malformedUri
  /-- A document arrived after the shutdown. -/
  | shutDown
  /-- A change notification held no text. -/
  | noText
  /-- The imports of a file lead back to it without end. -/
  | endlessImport
  deriving DecidableEq, Repr

end EdnLint
