import EdnLint.CommandLine.Run

/-!
# The program

The outermost layer: it takes a snapshot of the files that a call can reach, lets
`CommandLine.run` decide everything, and prints what came of it. The files are
those below the working directory, below the roots its configuration lists, and
below the words of the command line.

Serving needs a transport, which this program does not have; it says so.
-/

namespace EdnLint

namespace Snapshot

/-- Something that is there, by its names from the root, and whether it is closed. -/
structure Item where
  place : List Text
  entry : FileEntry
  isLocked : Bool

/-- What a directory holds, or that it is closed. -/
def directory (place : List Text) (inner : IO (List (List Item))) : IO (List Item) := do
  try return ⟨place, .directory, false⟩ :: (← inner).flatten
  catch _ => return [⟨place, .directory, true⟩]

/-- What a file holds, or that it is closed. -/
def file (place : List Text) (read : IO ByteArray) : IO (List Item) := do
  try return [⟨place, .file (← read).toList, false⟩]
  catch _ => return [⟨place, .file [], true⟩]

/-- What a directory entry is, and everything below it; `place` are the names of its
directory from the root. -/
partial def below (place : List Text) (entry : IO.FS.DirEntry) : IO (List Item) := do
  let here := place ++ [Text.ofString entry.fileName]
  if ← entry.path.isDir then
    directory here do (← entry.path.readDir).toList.mapM (below here)
  else file here (IO.FS.readBinFile entry.path)

/-- The place of a file or directory with everything below it; nothing if it is not
there. -/
def everything (name : String) : IO (List Item) := do
  try
    let path ← IO.FS.realPath name
    let place := (Path.ofText (Text.ofString path.toString)).names
    if ← path.isDir then directory place do (← path.readDir).toList.mapM (below place)
    else file place (IO.FS.readBinFile path)
  catch _ => return []

/-- The files below some places, seen from the working directory `cwd`. -/
def take (cwd : Path) (names : List String) : IO FileTree := do
  let items := (← names.mapM everything).flatten
  return ⟨cwd, items.map fun i => (i.place, i.entry),
    (items.filter (·.isLocked)).map (·.place)⟩

end Snapshot

namespace CommandLine

/-- The words of a call and the values behind an equals sign, which may be paths. -/
def reachable (args : List String) : List String :=
  args.flatMap fun arg =>
    match Text.splitFirst? '=' (Text.ofString arg) with
    | some (_, value) => [arg, value.toString]
    | none => [arg]

/-- Prints what came of a call; the result is the exit status. -/
def report (r : Run) : IO UInt32 := do
  IO.print r.stdout.toString
  IO.eprint r.stderr.toString
  match r.exit with
  | .status code => return UInt32.ofNat code
  | .fault _ =>
      IO.eprintln (program ++ ": the check was ended by a fault").toString
      return 1
  | .served =>
      IO.eprintln (program ++ ": there is no transport to serve on").toString
      return 1

end CommandLine

end EdnLint

open EdnLint in
/-- Runs the program. -/
def main (args : List String) : IO UInt32 := do
  let here := (← IO.FS.realPath ".").toString
  let cwd := Path.ofText (Text.ofString here)
  let near ← Snapshot.take cwd [here]
  let roots := match (Config.load near (some cwd.text)).2 with
    | .ok config => config.paths.map fun p => p.text.toString
    | .error _ => []
  let files ← Snapshot.take cwd (here :: roots ++ CommandLine.reachable args)
  CommandLine.report (CommandLine.run files (args.map Text.ofString))
