import EdnLint.Finding
import EdnLint.Schema.Problem

/-!
# Reports

A check reports the issues it found, in order, and the fault that stopped it, if
one did. Reports are put one after the other: what comes behind a fault is not
reported. `Report.none` and `Report.andThen` make them a monoid.
-/

namespace EdnLint

/-- A problem with its place. The path leads from the definition `resource`, or
from the top of the document without one. -/
structure Issue where
  message : Text
  path : List Key
  resource : Option Text
  hints : Hints
  severity : Option Text
  deriving Repr

/-- The issues of a check and what stopped it. -/
structure Report where
  issues : List Issue
  fault : Option Fault
  deriving Repr

namespace Report

/-- Nothing to report. -/
def none : Report := ⟨[], .none⟩

/-- A check that could not go on. -/
def stopped (fault : Fault) : Report := ⟨[], some fault⟩

/-- One problem at a path. -/
def problem (p : Problem) (path : List Key) : Report :=
  match p.message with
  | .ok message => ⟨[⟨message, path, .none, .none, .none⟩], .none⟩
  | .error fault => stopped fault

/-- A report and, unless it was stopped, a further one. -/
def andThen (a b : Report) : Report :=
  match a.fault with
  | some _ => a
  | .none => ⟨a.issues ++ b.issues, b.fault⟩

/-- Reports one after the other. -/
def all : List Report → Report
  | [] => none
  | r :: rs => r.andThen (all rs)

/-- A problem if a condition holds. -/
def when (condition : Bool) (p : Problem) (path : List Key) : Report :=
  if condition then problem p path else none

/-- A problem if a condition that may fail holds. -/
def whenOk (condition : Except Fault Bool) (p : Problem) (path : List Key) : Report :=
  match condition with
  | .ok holds => when holds p path
  | .error fault => stopped fault

/-- The issues as issues of a definition. -/
def under (resource : Text) (r : Report) : Report :=
  ⟨r.issues.map fun i => { i with resource := some resource }, r.fault⟩

@[simp] theorem none_andThen (r : Report) : none.andThen r = r := by
  simp [andThen, none]

@[simp] theorem andThen_none (r : Report) : r.andThen none = r := by
  cases r with
  | mk issues fault => cases fault <;> simp [andThen, none]

theorem andThen_assoc (a b c : Report) :
    (a.andThen b).andThen c = a.andThen (b.andThen c) := by
  cases a with
  | mk as fa =>
      cases fa with
      | some f => rfl
      | none =>
          cases b with
          | mk bs fb => cases fb <;> simp [andThen]

@[simp] theorem all_nil : all [] = none := rfl

theorem all_cons (r : Report) (rs : List Report) : all (r :: rs) = r.andThen (all rs) := rfl

theorem all_append (rs ss : List Report) : all (rs ++ ss) = (all rs).andThen (all ss) := by
  induction rs with
  | nil => simp
  | cons r rs ih => rw [List.cons_append, all_cons, all_cons, ih, andThen_assoc]

end Report

end EdnLint
