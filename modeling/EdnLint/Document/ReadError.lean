import EdnLint.Fault
import EdnLint.Text.Position

/-!
# What can be wrong with a document

A read error names its cause and the place of the character at fault, or of the
opening that was never closed. The wording of every cause is `Cause.message`.
-/

namespace EdnLint

/-- What a reader was in the middle of when it needed one more form. -/
inductive Part where
  | metadata
  | metadataTarget
  | quotedForm
  | discardedForm
  | taggedForm (tag : Text)
  deriving DecidableEq, Repr

/-- A part in the words of a message. -/
def Part.name : Part → Text
  | .metadata => "metadata"
  | .metadataTarget => "metadata target"
  | .quotedForm => "quoted form"
  | .discardedForm => "discarded form"
  | .taggedForm tag => CodePoint.ofChar '#' :: tag

namespace ReadError

/-- Why a document does not read. -/
inductive Cause where
  /-- A closing delimiter that closes nothing, or not this. -/
  | unmatched (delimiter : CodePoint)
  /-- The text ended inside a collection. -/
  | unclosed (closer : CodePoint)
  /-- A closing delimiter where a form was needed. -/
  | unexpected (delimiter : CodePoint) (part : Part)
  /-- The text ended where a form was needed. -/
  | endWithin (part : Part)
  | endWithinString
  | endWithinCharacter
  | invalidNumber (token : Text)
  | invalidKeyword (token : Text)
  | unsupportedCharacter (name : Text)
  | unsupportedEscape (letter : CodePoint)
  | invalidEscape (digits : Text)
  | unknownSymbolic (token : Text)
  | invalidDispatch
  deriving DecidableEq, Repr

/-- The wording of a cause. -/
def Cause.message : Cause → Text
  | .unmatched c => ("Unmatched delimiter: " : Text) ++ [c]
  | .unclosed c => ("Found an opening delimiter with no matching " : Text) ++ [c]
  | .unexpected c part => ("Unexpected " : Text) ++ [c] ++ " while reading " ++ part.name
  | .endWithin part => ("EOF while reading " : Text) ++ part.name
  | .endWithinString => "EOF while reading string"
  | .endWithinCharacter => "EOF while reading character"
  | .invalidNumber token => ("Invalid number: " : Text) ++ token
  | .invalidKeyword token => ("Invalid keyword: " : Text) ++ token
  | .unsupportedCharacter name => ("Unsupported character: \\" : Text) ++ name
  | .unsupportedEscape c => ("Unsupported escape character: \\" : Text) ++ [c]
  | .invalidEscape digits => ("Invalid unicode escape: \\u" : Text) ++ digits
  | .unknownSymbolic token => ("Unknown symbolic value: ##" : Text) ++ token
  | .invalidDispatch => "Invalid dispatch character"

end ReadError

/-- A cause and its place. -/
structure ReadError where
  cause : ReadError.Cause
  position : Position
  deriving DecidableEq, Repr

/-- The wording of a read error. -/
def ReadError.message (e : ReadError) : Text := e.cause.message

/-- Why reading stopped: an error of the document, or a fault. -/
inductive ReadFailure where
  | error (error : ReadError)
  | fault (fault : Fault)
  deriving DecidableEq, Repr

end EdnLint
