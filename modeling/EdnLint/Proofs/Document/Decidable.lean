import EdnLint.Proofs.Document.Reading

/-!
# Deciding equality of keys, data and nodes

Equality as Lean sees it, which keeps apart what `Key.same` merges. Each type goes
through lists of itself, so its equality is decided by a Boolean function that
recurses along with the lists.
-/

namespace EdnLint

namespace Key

mutual

/-- Whether two keys are equal. -/
def eqb : Key → Key → Bool
  | .atom a, .atom b => a == b
  | .tuple xs, .tuple ys => eqbAll xs ys
  | .bag xs, .bag ys => eqbAll xs ys
  | _, _ => false

/-- Whether two lists of keys are equal. -/
def eqbAll : List Key → List Key → Bool
  | [], [] => true
  | x :: xs, y :: ys => eqb x y && eqbAll xs ys
  | _, _ => false

end

theorem eqbAll_iff {xs : List Key} (h : ∀ x ∈ xs, ∀ y, x.eqb y = true ↔ x = y) (ys : List Key) :
    eqbAll xs ys = true ↔ xs = ys := by
  induction xs generalizing ys with
  | nil => cases ys <;> simp [eqbAll]
  | cons x xs ih =>
      rw [List.forall_mem_cons] at h
      cases ys with
      | nil => simp [eqbAll]
      | cons y ys => simp [eqbAll, h.1, ih h.2]

theorem eqb_iff (k l : Key) : k.eqb l = true ↔ k = l := by
  induction k using Key.induction generalizing l with
  | atom a => cases l <;> simp [eqb]
  | tuple xs ih => cases l <;> simp [eqb, eqbAll_iff ih]
  | bag xs ih => cases l <;> simp [eqb, eqbAll_iff ih]

instance : DecidableEq Key := fun k l => decidable_of_iff (k.eqb l = true) (eqb_iff k l)

end Key

namespace Datum

mutual

/-- Whether two data are equal. -/
def eqb : Datum → Datum → Bool
  | .atom a, .atom b => a == b
  | .vector xs, .vector ys => eqbAll xs ys
  | .set xs, .set ys => xs == ys
  | .map xs, .map ys => eqbEntries xs ys
  | _, _ => false

/-- Whether two lists of data are equal. -/
def eqbAll : List Datum → List Datum → Bool
  | [], [] => true
  | x :: xs, y :: ys => eqb x y && eqbAll xs ys
  | _, _ => false

/-- Whether two lists of entries are equal. -/
def eqbEntries : List (Key × Datum) → List (Key × Datum) → Bool
  | [], [] => true
  | (k, x) :: xs, (l, y) :: ys => k == l && eqb x y && eqbEntries xs ys
  | _, _ => false

end

mutual

theorem eqb_iff : ∀ d e : Datum, d.eqb e = true ↔ d = e
  | .atom a, e => by cases e <;> simp [eqb]
  | .vector xs, e => by cases e <;> simp [eqb, eqbAll_iff xs]
  | .set xs, e => by cases e <;> simp [eqb]
  | .map xs, e => by cases e <;> simp [eqb, eqbEntries_iff xs]

theorem eqbAll_iff : ∀ xs ys : List Datum, eqbAll xs ys = true ↔ xs = ys
  | [], ys => by cases ys <;> simp [eqbAll]
  | x :: xs, ys => by cases ys <;> simp [eqbAll, eqb_iff x, eqbAll_iff xs]

theorem eqbEntries_iff : ∀ xs ys : List (Key × Datum), eqbEntries xs ys = true ↔ xs = ys
  | [], ys => by cases ys <;> simp [eqbEntries]
  | (k, x) :: xs, ys => by
      cases ys <;> simp [eqbEntries, eqb_iff x, eqbEntries_iff xs, Prod.ext_iff]

end

instance : DecidableEq Datum := fun d e => decidable_of_iff (d.eqb e = true) (eqb_iff d e)

end Datum

namespace Node

mutual

/-- Whether two nodes are equal. -/
def eqb : Node → Node → Bool
  | .mk shape start stop forms, .mk shape' start' stop' forms' =>
      shape == shape' && start == start' && stop == stop' && eqbAll forms forms'

/-- Whether two lists of nodes are equal. -/
def eqbAll : List Node → List Node → Bool
  | [], [] => true
  | x :: xs, y :: ys => eqb x y && eqbAll xs ys
  | _, _ => false

end

theorem eqbAll_iff {xs : List Node} (h : ∀ x ∈ xs, ∀ y, x.eqb y = true ↔ x = y) (ys : List Node) :
    eqbAll xs ys = true ↔ xs = ys := by
  induction xs generalizing ys with
  | nil => cases ys <;> simp [eqbAll]
  | cons x xs ih =>
      rw [List.forall_mem_cons] at h
      cases ys with
      | nil => simp [eqbAll]
      | cons y ys => simp [eqbAll, h.1, ih h.2]

theorem eqb_iff (n m : Node) : n.eqb m = true ↔ n = m := by
  induction n using Node.induction generalizing m with
  | mk shape start stop forms ih =>
      cases m with
      | mk shape' start' stop' forms' => simp [eqb, eqbAll_iff ih, and_assoc]

instance : DecidableEq Node := fun n m => decidable_of_iff (n.eqb m = true) (eqb_iff n m)

end Node

end EdnLint
