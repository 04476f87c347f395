import EdnLint.Document.Reader
import EdnLint.Store.Definition

/-!
# Loading namespaces

Submitting a namespace stores it, loads the imports that are not stored yet, and
checks its definitions. An import is looked up by name in the directories of the
store; the issues of the file found are its own and not reported here.

A file may declare another name than the one it was found by, so imports can lead
back to a file without end. `depth` bounds how many loads are inside one another,
and `FileTree.loadDepth` is more than any chain of loads that ends can have: a
longer chain has loaded one file twice with the same names stored.
-/

namespace EdnLint

open Vocabulary

/-- A bound on how many loads are inside one another. -/
def FileTree.loadDepth (t : FileTree) : Nat := (t.fileCount + 1) * (t.fileCount + 1) + 1

namespace Store

variable [Pattern.Engine]

/-- Who speaks in the log. -/
def logSource : Text := "zenlsp.validator"

/-- The path of a namespace below a root: its segments are the directories, and
the last of them the file. -/
def relativePath? (name : Text) : Option Path :=
  let segments := Text.splitOn '.' name
  if segments.any List.isEmpty || name.contains (CodePoint.ofChar '/') then none
  else some ⟨.relative, segments.dropLast ++ [segments.getLast?.getD [] ++ ".edn"]⟩

/-- The file of a namespace, in the first directory that has it. A directory that
cannot be asked ends the lookup in a fault. -/
def findNamespace? (t : FileTree) (s : Store) (name : Text) : Except Fault (Option Path) :=
  match relativePath? name with
  | none => .ok none
  | some relative => (s.paths.map fun root => root.join relative).findM? t.isFile

/-- Loads the file of an import, if there is one. Without a fault, the issues that
loading it brought up are dropped. -/
def fetchImport (t : FileTree) (load : Path → Store → Outcome) (name : Text) (s : Store) :
    Outcome :=
  match s.findNamespace? t name with
  | .error fault => .stopped s fault
  | .ok none => .done s
  | .ok (some path) =>
      (load path s.clear).andThen fun after =>
        let message := ("import " : Text) ++ name ++ ": " ++ Text.ofNat after.issues.length
          ++ " errors not reported here"
        .logged { after with issues := s.issues } ⟨LogRecord.debugLevel, logSource, message⟩

/-- An import that is still not stored is an issue. -/
def settleImport (name : Text) (s : Store) : Outcome :=
  if (s.namespace? name).isSome then .done s
  else .record s (.problem (.unresolvedImport name) [imports])

/-- Loads an import that is not stored yet. -/
def loadImport (t : FileTree) (load : Path → Store → Outcome) (ns name : Text) (s : Store) :
    Outcome :=
  if (s.namespace? name).isSome || name = ns then .done s
  else (fetchImport t load name s).andThen (settleImport name)

/-- Loads the imports a namespace lists. -/
def loadImports (t : FileTree) (load : Path → Store → Outcome) (ns : Text) (listed : Datum)
    (s : Store) : Outcome :=
  if listed.isNil then .done s
  else
    match symbolNames? listed with
    | none => .record s (.problem .importsNotSymbols [imports])
    | some names => Outcome.each (loadImport t load ns) names s

/-- Submits a datum as a namespace, loading imports with `load`. -/
def submitWith (t : FileTree) (load : Path → Store → Outcome) (d : Datum) (s : Store) : Outcome :=
  match d with
  | .map entries =>
      match declared? d with
      | none => .record s (.problem .noNamespaceName [Vocabulary.ns])
      | some name =>
          let listed := (Key.lookup? imports entries).getD .nil
          (loadImports t load name listed (s.put name entries)).andThen fun s =>
            .record s (Report.all (entries.map fun (key, d) => s.checkEntry name key d))
  | d => .record s (.problem (.notNamespace d.typeName) [])

/-- Loads a file as a namespace. A file that cannot be read is only logged. -/
def loadFileWithin (t : FileTree) : (depth : Nat) → Path → Store → Outcome
  | 0, _, s => .stopped s .endlessImport
  | depth + 1, path, s =>
      let skipped (reason : Text) : Outcome :=
        .logged s ⟨LogRecord.warningLevel, logSource,
          ("load_file: could not read " : Text) ++ path.text ++ ": " ++ reason⟩
      match t.readText path with
      | .error (.error e) => skipped (e.message path)
      | .error (.fault fault) => .stopped s fault
      | .ok text =>
          match readDatum text with
          | .error (.error e) => skipped e.message
          | .error (.fault fault) => .stopped s fault
          | .ok d => submitWith t (loadFileWithin t depth) d s

/-- Loads a file as a namespace. -/
def loadFile (t : FileTree) (path : Path) (s : Store) : Outcome :=
  loadFileWithin t t.loadDepth path s

/-- Submits a datum as a namespace. -/
def submit (t : FileTree) (d : Datum) (s : Store) : Outcome :=
  submitWith t (loadFile t) d s

/-- Imports are looked up in a directory from now on. -/
def addPath (root : Path) (s : Store) : Store :=
  if s.paths.contains root then s else { s with paths := s.paths ++ [root] }

/-- Loads a file that was come across below a directory. -/
def loadListed (t : FileTree) (path : Path) (s : Store) : Outcome :=
  (Outcome.logged s ⟨LogRecord.debugLevel, logSource,
    ("load_paths: loading " : Text) ++ path.text⟩).andThen (loadFile t path)

/-- Loads everything below a directory, which imports are looked up in from now
on. -/
def loadRoot (t : FileTree) (root : Path) (s : Store) : Outcome :=
  match t.ednBelow root with
  | .error fault => .stopped (s.addPath root) fault
  | .ok files => Outcome.each (loadListed t) files (s.addPath root)

/-- Loads everything below some directories and forgets the issues. -/
def loadRoots (t : FileTree) (roots : List Path) (s : Store) : Outcome :=
  (Outcome.each (loadRoot t) roots s).andThen fun s => .done s.clear

end Store

end EdnLint
