import EdnLint.CommandLine.Run
import EdnLint.Proofs.Datum.Display
import EdnLint.Proofs.Files.Place

/-!
# What a check reports

A check goes through its files with one linter, so what a file is reported for depends on the
files before it through the linter that they leave. `Checks` follows the files in this way and
collects the records that count: one for a file that cannot be read, and one for each finding of
a file that can.

A file that is missing or is a directory is just another record. A file whose bytes are no text
is none: it ends the check, the files behind it are not looked at, and there is no total. The same
goes for a configuration that cannot be loaded, which ends the check before its first file.
-/

namespace EdnLint

namespace CommandLine

/-- Whether a remark counts. What was logged does not. -/
def Remark.counts : Remark → Bool
  | .logged _ => false
  | _ => true

/-- The remarks of a check that count. -/
def Checked.records (c : Checked) : List Remark := c.remarks.filter Remark.counts

/-- A file that ends the check it is part of. -/
def Halts (t : FileTree) (path : Path) : Prop := path.refusal? ≠ none ∨ t.IsUndecodable path

variable {t : FileTree} {l l' : Linter} {path : Path} {files : List Path}

section

variable [Pattern.Engine]

variable {roots : List Path}

end

/-- How a call shows a check, with log records from a level on. -/
structure Shows (r : Run) (c : Checked) (level : Nat) : Prop where
  stdout : r.stdout = unlines (c.records.filterMap Remark.outLine?)
  /-- Beside the output stand the records of files that cannot be read, in order, with what was
  logged in between. -/
  stderr : ∃ lines, r.stderr = unlines lines ∧
    (c.records.filterMap (Remark.errLine? level)).Sublist lines ∧
    lines.Perm (c.records.filterMap (Remark.errLine? level) ++
      (c.remarks.filter (!·.counts)).filterMap (Remark.errLine? level))
  one : r.exit = .status 1 ↔ ∃ total, c.total = .ok total ∧ 0 < total
  zero : r.exit = .status 0 ↔ c.total = .ok 0

end CommandLine

end EdnLint
