import EdnLint.Document.Location
import EdnLint.Text.Lines

/-!
# Findings

A finding is a message with a range of the text, counted from zero. The range is
the one the validator names, if it does, and otherwise the span of the node the
error was located at. A range that starts at an opening parenthesis is cut down
to that character, so that a long form is not marked when only its head is at
fault.

A diagnostic is a finding as an editor shows it: an empty range is widened to one
character. `Finding.line` is a finding as the command line prints it, counted
from one.
-/

namespace EdnLint

/-- How serious a finding is. -/
inductive Severity where
  | error
  | warning
  | information
  | hint
  deriving DecidableEq, Repr

namespace Severity

/-- The severity a validator's word stands for; a warning for any other word. -/
def ofLevel : Option Text → Severity
  | some level =>
      if level = ("info" : Text) then .information
      else if level = ("error" : Text) then .error
      else .warning
  | none => .warning

/-- The number of a severity in the editor's protocol. -/
def code : Severity → Nat
  | .error => 1
  | .warning => 2
  | .information => 3
  | .hint => 4

/-- The severity as the command line prints it. -/
def name : Severity → Text
  | .error => "error"
  | .warning => "warning"
  | .information => "info"
  | .hint => "hint"

end Severity

/-- Coordinates named by a validator, counted from one. -/
structure Hints where
  row : Option Int
  col : Option Int
  endRow : Option Int
  endCol : Option Int
  deriving DecidableEq, Repr

/-- No coordinates. -/
def Hints.none : Hints := ⟨.none, .none, .none, .none⟩

/-- A message and its range, lines and columns counted from zero. -/
structure Finding where
  startLine : Nat
  startCol : Nat
  endLine : Nat
  endCol : Nat
  message : Text
  severity : Severity
  deriving DecidableEq, Repr

namespace Finding

/-- A coordinate counted from zero; what lies in front of the text is its start. -/
def zeroBased (n : Int) : Nat := (n - 1).toNat

/-- The finding of a range counted from one. A missing end is the start, and an
opening parenthesis at the start is the whole range. -/
def ofRange (lines : List Text) (message : Text) (severity : Severity)
    (row col : Int) (endRow endCol : Option Int) : Finding :=
  let line := zeroBased row
  let start := zeroBased col
  if Text.charAt? lines line start = some (CodePoint.ofChar '(') then
    ⟨line, start, line, start + 1, message, severity⟩
  else
    ⟨line, start, (endRow.map zeroBased).getD line, (endCol.map zeroBased).getD start,
      message, severity⟩

/-- The finding at the validator's coordinates or else at a location; none without
either. -/
def locate? (location : Option Location) (hints : Hints) (lines : List Text)
    (message : Text) (severity : Severity) : Option Finding :=
  match hints.row, hints.col with
  | some row, some col => some (ofRange lines message severity row col hints.endRow hints.endCol)
  | _, _ =>
      location.map fun l =>
        ofRange lines message severity l.node.start.line l.node.start.col
          (some l.node.stop.line) (some l.node.stop.col)

/-- The finding as one line of output. -/
def line (path : Text) (f : Finding) : Text :=
  path ++ ":" ++ Text.ofNat (f.startLine + 1) ++ ":" ++ Text.ofNat (f.startCol + 1) ++ ": "
    ++ f.severity.name ++ ": " ++ f.message

end Finding

/-- A finding as an editor shows it. -/
structure Diagnostic where
  startLine : Nat
  startCol : Nat
  endLine : Nat
  endCol : Nat
  message : Text
  severity : Severity
  deriving DecidableEq, Repr

namespace Diagnostic

/-- Who reports a diagnostic. -/
def source : Text := "zen-lang"

/-- The diagnostic of a finding; an empty range takes in one character. -/
def ofFinding (f : Finding) : Diagnostic :=
  let empty := f.endLine = f.startLine && f.endCol = f.startCol
  ⟨f.startLine, f.startCol, f.endLine, if empty then f.endCol + 1 else f.endCol,
    f.message, f.severity⟩

end Diagnostic

end EdnLint
