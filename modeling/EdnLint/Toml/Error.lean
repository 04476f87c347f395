import EdnLint.Fault
import EdnLint.Text.Position
import EdnLint.Text.Quoted

/-!
# Why a TOML document is refused

A reader that stops names the cause and the text that was still to be read. Where
in the document that is follows from how much is left, so no reader has to count.
-/

namespace EdnLint

namespace Toml

/-- The parts of a key, from the outermost table inwards. -/
abbrev Dotted := List Text

/-- What is wrong with a document. -/
inductive Cause where
  | statement
  | trailing
  | keyStart
  | noEquals
  | value
  | day
  | openArray
  | openTable
  | tableEnd
  | arrayEnd
  | unterminated
  | escape
  | hexadecimal
  | notScalar
  | illegal (c : CodePoint)
  | invalid (c : CodePoint)
  | expected (mark : Text)
  | overwrite
  | duplicate (name : Text)
  | declaredTwice (key : Dotted)
  | immutable (key : Dotted)
  | redefined (key : Dotted)
  deriving DecidableEq, Repr

/-- A key with its parts quoted. -/
def Dotted.text (key : Dotted) : Text := Text.tupled (key.map Text.quoted)

/-- The words for a cause. -/
def Cause.message : Cause → Text
  | .statement => "Invalid statement"
  | .trailing => "Expected newline or end of document after a statement"
  | .keyStart => "Invalid initial character for a key part"
  | .noEquals => "Expected '=' after a key in a key/value pair"
  | .value => "Invalid value"
  | .day => "Invalid date or datetime"
  | .openArray => "Unclosed array"
  | .openTable => "Unclosed inline table"
  | .tableEnd => "Expected ']' at the end of a table declaration"
  | .arrayEnd => "Expected ']]' at the end of an array declaration"
  | .unterminated => "Unterminated string"
  | .escape => "Unescaped '\\' in a string"
  | .hexadecimal => "Invalid hex value"
  | .notScalar => "Escaped character is not a Unicode scalar value"
  | .illegal c => ("Illegal character " : Text) ++ Text.quoted [c]
  | .invalid c => ("Found invalid character " : Text) ++ Text.quoted [c]
  | .expected mark => ("Expected " : Text) ++ mark.quoted
  | .overwrite => "Cannot overwrite a value"
  | .duplicate name => ("Duplicate inline table key " : Text) ++ name.quoted
  | .declaredTwice key => ("Cannot declare " : Text) ++ Dotted.text key ++ " twice"
  | .immutable key => ("Cannot mutate immutable namespace " : Text) ++ Dotted.text key
  | .redefined key => ("Cannot redefine namespace " : Text) ++ Dotted.text key

/-- Why a reader stopped: a cause with the text still to be read, or a fault. -/
inductive Stop where
  | error (cause : Cause) (rest : Text)
  | fault (fault : Fault)
  deriving DecidableEq, Repr

/-- Where in a document the text still to be read begins. -/
def place (document rest : Text) : Text :=
  if rest.isEmpty then "end of document"
  else
    let p := Position.first.after (document.take (document.length - rest.length))
    ("line " : Text) ++ Text.ofNat p.line ++ ", column " ++ Text.ofNat p.col

/-- A cause with its place. -/
def errorText (document : Text) (cause : Cause) (rest : Text) : Text :=
  cause.message ++ " (at " ++ place document rest ++ ")"

end Toml

end EdnLint
