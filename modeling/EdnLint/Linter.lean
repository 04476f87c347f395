import EdnLint.Lint
import EdnLint.Store.Loading

/-!
# The linter

A linter lints documents against a store of namespaces. It keeps the store and
the patterns of documents to leave out; files are read from a snapshot.
-/

namespace EdnLint

variable [Pattern.Engine]

/-- The store as a validator, with the files its imports are read from. -/
def Store.validator (t : FileTree) : Validator Store where
  submit d _ s :=
    let o := s.submit t d
    (o.store, o.log, o.fault)
  read s := (s, .ok s.issues)
  clear s := s.clear

/-- A store and the documents to leave out. -/
structure Linter where
  store : Store
  exclude : List Text
  deriving Repr

namespace Linter

/-- A linter that knows no namespace. -/
def fresh (paths : List Path) (exclude : List Text) : Linter := ⟨.empty paths, exclude⟩

/-- Lints a document. -/
def lint (t : FileTree) (sink : Sink) (text uri : Text) (l : Linter) :
    Linter × LintResult Store :=
  let result := Lint.run (Store.validator t) sink l.exclude text uri l.store
  ({ l with store := result.state }, result)

/-- Loads everything below some directories. A fault is logged, and what was loaded
before it stays. -/
def preload (t : FileTree) (roots : List Path) (l : Linter) : Linter × List LogRecord :=
  let o := l.store.loadRoots t roots
  let failed : List LogRecord := match o.fault with
    | none => []
    | some _ =>
        [⟨LogRecord.errorLevel, Lint.logSource, ("preload failed:\n" : Text) ++ LogRecord.account⟩]
  ({ l with store := o.store }, o.log ++ failed)

end Linter

end EdnLint
