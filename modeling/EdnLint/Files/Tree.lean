import EdnLint.Fault
import EdnLint.Files.Path
import EdnLint.Text.Utf8

/-!
# Files

A snapshot of a file system: the files and directories by their names from the
root. The directories on the way to an entry are there without being listed.
Looking a path up walks it name by name, so a step through a missing name or a
file fails even if two dots follow.

A step may also be refused: its name is too long, or the directory may not be
entered. One who reads a file takes this as an error like the others. One who only
asks what a path leads to has no answer then, and that is a fault.
-/

namespace EdnLint

/-- A file with its bytes, or a directory. -/
inductive FileEntry where
  | file (bytes : List UInt8)
  | directory
  deriving DecidableEq, Repr

/-- Why a file cannot be read. -/
inductive FileError where
  | notFound
  | notDirectory
  | isDirectory
  | nameTooLong
  | denied
  deriving DecidableEq, Repr

namespace FileError

/-- The system's number for the error. -/
def code : FileError → Nat
  | .notFound => 2
  | .notDirectory => 20
  | .isDirectory => 21
  | .nameTooLong => 36
  | .denied => 13

/-- The system's words for the error. -/
def reason : FileError → Text
  | .notFound => "No such file or directory"
  | .notDirectory => "Not a directory"
  | .isDirectory => "Is a directory"
  | .nameTooLong => "File name too long"
  | .denied => "Permission denied"

/-- The error with the path that it concerns. -/
def message (path : Path) (e : FileError) : Text :=
  ("[Errno " : Text) ++ Text.ofNat e.code ++ "] " ++ e.reason ++ ": " ++ path.text.quoted

/-- The fault that keeps a mere question about a path from being answered. The other
errors answer it: there is nothing. -/
def fault? : FileError → Option Fault
  | .nameTooLong => some .nameTooLong
  | .denied => some .denied
  | _ => none

end FileError

/-- Why reading a file as text stopped. -/
inductive FileFailure where
  | error (error : FileError)
  | fault (fault : Fault)
  deriving DecidableEq, Repr

/-- The entries of a file system, and the working directory. -/
structure FileTree where
  cwd : Path
  entries : List (List Text × FileEntry)
  /-- The places that are closed: a directory among them is neither entered nor listed,
  and a file among them is not read. -/
  locked : List (List Text)
  deriving Repr

namespace FileTree

/-- What stands at an absolute list of names. -/
def at? (t : FileTree) (names : List Text) : Option FileEntry :=
  match t.entries.find? fun (known, _) => known == names with
  | some (_, entry) => some entry
  | none =>
      if names.isPrefixOf t.cwd.names || t.entries.any (fun (known, _) => names.isPrefixOf known) then
        some .directory
      else none

/-- Walks names from a place that is known to be there; `here` holds its names. -/
def walk (t : FileTree) (here : List Text) : List Text → Except FileError (List Text × FileEntry)
  | [] =>
      match t.at? here with
      | some entry => .ok (here, entry)
      | none => .error .notFound
  | name :: names =>
      match t.at? here with
      | none => .error .notFound
      | some (.file _) => .error .notDirectory
      | some .directory =>
          if t.locked.contains here then .error .denied
          else if name = (".." : Text) then t.walk here.dropLast names
          else if Path.maxNameSize < Path.size name then .error .nameTooLong
          else t.walk (here ++ [name]) names

/-- Where the walk along a path begins. -/
def start (t : FileTree) (p : Path) : List Text :=
  match p.root with
  | .relative => t.cwd.names
  | _ => []

/-- What a path leads to, with its place from the root. -/
def find (t : FileTree) (p : Path) : Except FileError (List Text × FileEntry) :=
  if p.isLong then .error .nameTooLong else t.walk (t.start p) p.names

/-- The answer to one who asks what a path leads to. Where nothing is, and for a path
that is refused, the answer is nothing. -/
def look (t : FileTree) (p : Path) : Except Fault (Option (List Text × FileEntry)) :=
  if p.refusal?.isSome then .ok none
  else
    match t.find p with
    | .ok found => .ok (some found)
    | .error e =>
        match e.fault? with
        | some fault => .error fault
        | none => .ok none

/-- Whether a path leads to a file. -/
def isFile (t : FileTree) (p : Path) : Except Fault Bool :=
  (t.look p).map fun
    | some (_, .file _) => true
    | _ => false

/-- Whether a path leads anywhere. -/
def isThere (t : FileTree) (p : Path) : Except Fault Bool := (t.look p).map Option.isSome

/-- Line ends of every kind become line feeds. -/
def unifyLineEnds : Text → Text
  | [] => []
  | [c] => if c = '\r' then ['\n'] else [c]
  | c :: d :: t =>
      if c = '\r' then
        if d = '\n' then '\n' :: unifyLineEnds t else '\n' :: unifyLineEnds (d :: t)
      else c :: unifyLineEnds (d :: t)

/-- The text of a file. -/
def readText (t : FileTree) (p : Path) : Except FileFailure Text :=
  match p.refusal? with
  | some fault => .error (.fault fault)
  | none =>
      match t.find p with
      | .error e => .error (.error e)
      | .ok (place, entry) =>
          if t.locked.contains place then .error (.error .denied)
          else
            match entry with
            | .directory => .error (.error .isDirectory)
            | .file bytes =>
                match Utf8.decode? bytes with
                | some text => .ok (unifyLineEnds text)
                | none => .error (.fault .undecodable)

/-- Whether a name ends in `.edn`. -/
def isEdn (name : Text) : Bool := ("nde." : Text).isPrefixOf name.reverse

/-- Whether all directories on the way from a place along some names can be listed. -/
def isListed (t : FileTree) (place names : List Text) : Bool :=
  (List.range names.length).all fun i => !t.locked.contains (place ++ names.take i)

/-- The names below a place that lead to an entry or to a directory on the way to
one, without repetitions, as far as directories can be listed. -/
def below (t : FileTree) (place : List Text) : List (List Text) :=
  ((t.entries.flatMap fun (names, _) =>
    if place.isPrefixOf names then
      let rest := names.drop place.length
      (List.range rest.length).map fun i => rest.take (i + 1)
    else []).eraseDups).filter (t.isListed place)

/-- Everything below a directory whose name ends in `.edn`, in order. What is no
directory has nothing below it. A directory is listed by its path, which must not be
too long. -/
def ednBelow (t : FileTree) (p : Path) : Except Fault (List Path) := do
  match ← t.look p with
  | some (place, .directory) =>
      let path (names : List Text) : Path := ⟨p.root, p.names ++ names⟩
      let isBeyond (names : List Text) : Bool :=
        t.at? (place ++ names) = some .directory && (path names).isLong
      if (t.below place).any isBeyond then .error .nameTooLong
      else
        let named := (t.below place).filter fun names => (names.getLast?.map isEdn).getD false
        return (named.map path).mergeSort Path.le
  | _ => return []

/-- How many files there are. -/
def fileCount (t : FileTree) : Nat :=
  (t.entries.filter fun (_, entry) =>
    match entry with
    | .file _ => true
    | .directory => false).length

end FileTree

end EdnLint
