import EdnLint.Config
import EdnLint.Linter

/-!
# Checking files

The files of a command line are linted once, in order, under the configuration of
the working directory. Findings go to the output; a file that cannot be read is
reported beside it and counts like one finding.
-/

namespace EdnLint

namespace CommandLine

variable [Pattern.Engine]

/-- Something that a check has to say, in the order in which it comes up. -/
inductive Remark where
  /-- A finding. -/
  | found (line : Text)
  /-- A file that cannot be read. -/
  | unreadable (line : Text)
  /-- A log record. -/
  | logged (record : LogRecord)
  deriving DecidableEq, Repr

/-- The remarks of a check, and how many of them count, or the fault that ended
it. -/
structure Checked where
  remarks : List Remark
  total : Except Fault Nat
  deriving Repr

/-- Checks one file. -/
def checkFile (t : FileTree) (path : Path) (l : Linter) : Linter × Checked :=
  match t.readText path with
  | .error (.error e) =>
      (l, ⟨[.unreadable (path.text ++ ": cannot read: " ++ e.reason)], .ok 1⟩)
  | .error (.fault fault) => (l, ⟨[], .error fault⟩)
  | .ok text =>
      let (l, result) := l.lint t .absent text (Uri.ofPath (Path.resolve t.cwd path))
      let lines := result.findings.map fun f => Remark.found (f.line path.text)
      (l, ⟨result.log.map .logged ++ lines, .ok result.findings.length⟩)

/-- Checks files one after the other. A fault ends the check. -/
def checkFiles (t : FileTree) : List Path → Linter → Checked
  | [], _ => ⟨[], .ok 0⟩
  | path :: paths, l =>
      let (l, here) := checkFile t path l
      match here.total with
      | .error fault => ⟨here.remarks, .error fault⟩
      | .ok count =>
          let rest := checkFiles t paths l
          ⟨here.remarks ++ rest.remarks, rest.total.map (count + ·)⟩

/-- The linter that a configuration and further roots make, and what is logged
meanwhile. -/
def prepare (t : FileTree) (config : Config) (roots : List Path) : Linter × List LogRecord :=
  let l := Linter.fresh [] config.exclude
  let roots := config.paths ++ roots
  if roots.isEmpty then (l, []) else l.preload t roots

/-- Checks files under the configuration of the working directory. -/
def check (t : FileTree) (files roots : List Path) : Checked :=
  let (log, config) := Config.load t (some t.cwd.text)
  match config with
  | .error fault => ⟨log.map .logged, .error fault⟩
  | .ok config =>
      let (l, more) := prepare t config roots
      let checked := checkFiles t files l
      ⟨(log ++ more).map .logged ++ checked.remarks, checked.total⟩

end CommandLine

end EdnLint
