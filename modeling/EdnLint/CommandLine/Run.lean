import EdnLint.CommandLine.Arguments
import EdnLint.CommandLine.Check

/-!
# Running the program

`run` gives all that a call of the program does: what it prints on both channels,
how it ends, and which service it starts, if it does not end. The exit status of a
check is one exactly if something counts.
-/

namespace EdnLint

namespace CommandLine

variable [Pattern.Engine]

/-- The version of the program. -/
def version : Text := "0.1.0"

/-- How a call ends. -/
inductive Exit where
  /-- The service was started. -/
  | served
  | status (code : Nat)
  | fault (fault : Fault)
  deriving DecidableEq, Repr

/-- What is served. -/
inductive Service where
  | io
  | tcp (host : Text) (port : Int)
  deriving DecidableEq, Repr

/-- What came of a call. -/
structure Run where
  exit : Exit
  stdout : Text
  stderr : Text
  started : Option Service
  deriving DecidableEq, Repr

namespace Remark

/-- What a remark adds to the output. -/
def outLine? : Remark → Option Text
  | .found line => some line
  | _ => none

/-- What a remark adds beside the output, with records from a level on. -/
def errLine? (level : Nat) : Remark → Option Text
  | .found _ => none
  | .unreadable line => some line
  | .logged r => if level ≤ r.level then some r.line else none

end Remark

/-- The exit of a check. -/
def Checked.exit (c : Checked) : Exit :=
  match c.total with
  | .ok total => .status (if 0 < total then 1 else 0)
  | .error fault => .fault fault

/-- A check as a call, with log records from a level on. -/
def Checked.toRun (c : Checked) (level : Nat) : Run :=
  ⟨c.exit, unlines (c.remarks.filterMap Remark.outLine?),
    unlines (c.remarks.filterMap (Remark.errLine? level)), none⟩

/-- The address that is served at. -/
def host : Text := "127.0.0.1"

/-- Does what the arguments say. -/
def perform (t : FileTree) (a : Arguments) : Run :=
  if a.version then ⟨.status 0, unlines [program ++ " " ++ version], [], none⟩
  else
    match a.mode with
    | .check files =>
        (check t (files.map Path.ofText) (a.paths.map Path.ofText)).toRun a.level
    | .tcp port => ⟨.served, [], [], some (.tcp host port)⟩
    | .stdio | .unset => ⟨.served, [], [], some .io⟩

/-- A call of the program. -/
def run (t : FileTree) (argv : List Text) : Run :=
  match Arguments.ofWords argv with
  | .ok a => perform t a
  | .error .help => ⟨.status 0, helpText, [], none⟩
  | .error (.refused e) => ⟨.status 2, [], refusal e, none⟩

end CommandLine

end EdnLint
