import EdnLint.Files.Tree
import EdnLint.Log
import EdnLint.Members
import EdnLint.Schema.Report

/-!
# The store of namespaces

The store holds the namespaces that have been submitted, in order of first
submission, the directories that imports are looked up in, and the issues that
have come up since they were last cleared.

An operation on a store ends in an `Outcome`: the store as it was left, what was
logged, and the fault that stopped the operation, if one did. Changes made before
a fault stay.
-/

namespace EdnLint

/-- The namespaces known so far and the issues not yet read. -/
structure Store where
  paths : List Path
  namespaces : Members (List (Key × Datum))
  issues : List Issue
  deriving Repr

namespace Store

/-- A store that knows nothing but where to look. -/
def empty (paths : List Path) : Store := ⟨paths, [], []⟩

/-- The entries of a namespace. -/
def namespace? (s : Store) (name : Text) : Option (List (Key × Datum)) :=
  Members.get? name s.namespaces

/-- Stores a namespace: a known name keeps its place. -/
def put (s : Store) (name : Text) (entries : List (Key × Datum)) : Store :=
  { s with namespaces := Members.put name entries s.namespaces }

/-- Forgets the issues. -/
def clear (s : Store) : Store := { s with issues := [] }

/-- The definition a symbol refers to from a namespace; nil counts as none. -/
def definition? (s : Store) (from' symbol : Text) : Option Datum :=
  ((s.namespace? ((Name.qualifier? symbol).getD from')).bind fun entries =>
    Key.lookup? (.symbol (Name.base symbol)) entries).filter fun d => !d.isNil

end Store

/-- How an operation on a store ended. -/
structure Outcome where
  store : Store
  log : List LogRecord
  fault : Option Fault
  deriving Repr

namespace Outcome

/-- The store as it is now. -/
def done (s : Store) : Outcome := ⟨s, [], none⟩

/-- A log record and nothing else. -/
def logged (s : Store) (record : LogRecord) : Outcome := ⟨s, [record], none⟩

/-- A fault. -/
def stopped (s : Store) (fault : Fault) : Outcome := ⟨s, [], some fault⟩

/-- Goes on from an outcome, unless it was stopped. -/
def andThen (o : Outcome) (next : Store → Outcome) : Outcome :=
  match o.fault with
  | some _ => o
  | none =>
      let after := next o.store
      ⟨after.store, o.log ++ after.log, after.fault⟩

/-- The issues of a report added to the store. -/
def record (s : Store) (r : Report) : Outcome :=
  ⟨{ s with issues := s.issues ++ r.issues }, [], r.fault⟩

/-- An operation on each item in turn. -/
def each {α : Type} (f : α → Store → Outcome) : List α → Store → Outcome
  | [], s => done s
  | a :: as, s => (f a s).andThen (each f as)

@[simp] theorem done_andThen (s : Store) (next : Store → Outcome) :
    (done s).andThen next = next s := by
  simp [andThen, done]

@[simp] theorem each_nil {α : Type} (f : α → Store → Outcome) (s : Store) :
    each f [] s = done s := rfl

theorem each_cons {α : Type} (f : α → Store → Outcome) (a : α) (as : List α) (s : Store) :
    each f (a :: as) s = (f a s).andThen (each f as) := rfl

end Outcome

end EdnLint
