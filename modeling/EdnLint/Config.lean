import EdnLint.Document.Reader
import EdnLint.Files.Tree
import EdnLint.Log
import EdnLint.Toml.Reader

/-!
# The configuration of a workspace

Settings come in layers, and a later layer overrides an earlier one: nothing at
all, the `:paths` of `zen.edn`, the members of `.zenlsp.toml`, and what the client
sends. A file that is missing, cannot be read or does not parse contributes
nothing, and the latter two are logged.

A setting of the wrong type is left out. The one exception is a `paths` member of
another type than an array, which still overrides: it lists no paths.
-/

namespace EdnLint

/-- What a workspace is set up with. -/
structure Config where
  root : Option Text
  paths : List Path
  exclude : List Text
  logLevel : Option Text
  deriving Repr

namespace Config

/-- Who speaks in the log. -/
def logSource : Text := "zenlsp.workspace"

/-- A workspace without settings. -/
def empty (root : Option Text) : Config := ⟨root, [], [], none⟩

/-- What is logged about a file that does not count. -/
def skipped (path : Path) (reason : Text) : LogRecord :=
  ⟨LogRecord.warningLevel, logSource, ("could not read " : Text) ++ path.text ++ ": " ++ reason⟩

/-- The absolute paths of some names below a directory. -/
def resolveNames (t : FileTree) (dir : Path) (names : List Text) : Except Fault (List Path) :=
  names.mapM fun name =>
    let path := dir.join (Path.ofText name)
    match path.fault? with
    | some fault => .error fault
    | none => .ok (Path.resolve t.cwd path)

/-- The texts among some data. -/
def textsOf (items : List Datum) : List Text :=
  items.filterMap fun
    | .atom (.string t) => some t
    | _ => none

/-- The names that a datum lists under `:paths`. -/
def listedNames : Datum → List Text
  | .map entries =>
      match Key.lookup? (.keyword "paths") entries with
      | some (.vector items) => textsOf items
      | _ => []
  | _ => []

/-- The paths listed in `zen.edn`, and what is logged about it. -/
def listedPaths (t : FileTree) (dir : Path) : List LogRecord × Except Fault (List Path) :=
  let path := dir.child "zen.edn"
  match t.isFile path with
  | .error fault => ([], .error fault)
  | .ok false => ([], .ok [])
  | .ok true =>
      match t.readText path with
      | .error (.error e) => ([skipped path (e.message path)], .ok [])
      | .error (.fault fault) => ([], .error fault)
      | .ok text =>
          match readDatum text with
          | .error (.error e) => ([skipped path e.message], .ok [])
          | .error (.fault fault) => ([], .error fault)
          | .ok d => ([], resolveNames t dir (listedNames d))

/-- The members of `.zenlsp.toml`, and what is logged about it. -/
def projectMembers (t : FileTree) (dir : Path) :
    List LogRecord × Except Fault (List (Text × Setting)) :=
  let path := dir.child ".zenlsp.toml"
  match t.isThere path with
  | .error fault => ([], .error fault)
  | .ok false => ([], .ok [])
  | .ok true =>
      match t.readText path with
      | .error (.error e) => ([skipped path (e.message path)], .ok [])
      | .error (.fault fault) => ([], .error fault)
      | .ok text =>
          match Toml.parse text with
          | .error (.error cause rest) => ([skipped path (Toml.errorText text cause rest)], .ok [])
          | .error (.fault fault) => ([], .error fault)
          | .ok members => ([], .ok members)

/-- The paths that the project's own file lists, which stand in for those `listed`
elsewhere. -/
def projectPaths (t : FileTree) (dir : Path) (listed : List Path)
    (members : List (Text × Setting)) : Except Fault (List Path) :=
  match Members.get? "paths" members with
  | some (.array items) => resolveNames t dir (items.filterMap Setting.string?)
  | some _ => .ok []
  | none => .ok listed

/-- The patterns that a member lists, each item as a text; without an array, those
known before. -/
def patterns (known : List Text) (member : Option Setting) : Except Fault (List Text) :=
  match member.bind Setting.array? with
  | some items => items.mapM Setting.plain
  | none => .ok known

/-- The configuration of a workspace, and what is logged about it. -/
def load (t : FileTree) (root : Option Text) : List LogRecord × Except Fault Config :=
  match root with
  | none => ([], .ok (empty root))
  | some name =>
      if name.isEmpty then ([], .ok (empty root))
      else
        let dir := Path.ofText name
        match listedPaths t dir with
        | (log, .error fault) => (log, .error fault)
        | (log, .ok listed) =>
            let (more, members) := projectMembers t dir
            (log ++ more, do
              let members ← members
              let paths ← projectPaths t dir listed members
              let exclude ← patterns [] (Members.get? "exclude" members)
              return ⟨root, paths, exclude, (Members.get? "log_level" members).bind Setting.string?⟩)

/-- The configuration with the settings of a client, if they are an object. -/
def applyClient (settings : Json) (c : Config) : Except Fault Config := do
  let settings := Setting.ofJson settings
  let exclude ← patterns c.exclude (settings.get? "exclude")
  let level := (settings.get? "logLevel").bind Setting.string?
  return { c with exclude := exclude, logLevel := level <|> c.logLevel }

end Config

end EdnLint
