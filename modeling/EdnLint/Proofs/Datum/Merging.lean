import EdnLint.Proofs.Datum.Same

/-!
# Equal keys and merged keys

Two ways of comparing keys meet in a map. A test asks whether two keys are equal: numbers of
all kinds by the points they stand for, sequences place by place, bags by their members. A
container asks less. The float that is not a number is one object, equal to nothing, and a
container knows it again before it asks for equality. Sequences and bags are containers too,
so `Key.Equals` and `Key.Merges` are defined by each other: equality looks at the items of a
container as the container does.

`Key.same` decides the second relation and `Key.equal` the first (`Key.same_iff_merges`,
`Key.equal_iff_equals`), on keys whose bags hold no key twice. Bags are equal if every member
of each is merged with one of the other; the decision counts both and looks one way only.
-/

namespace EdnLint

namespace Number

/-- The point that a number of each kind stands for. -/
def exact : Number → Quantity
  | .int n => .rational n
  | .float .nan => .undefined
  | .float (.infinity negative) => .infinite negative
  | .float (.finite negative mantissa exponent) =>
      .rational (ExactValue.signed negative (mantissa * 2 ^ exponent))
  | .ratio r => .rational r
  | .decimal d => .rational (ExactValue.signed d.negative (d.coefficient * 10 ^ d.exponent))

theorem signed_natAbs (n : Int) : ExactValue.signed (n < 0) (n.natAbs : ℚ) = n := by
  by_cases h : n < 0
  · have hcast : (n.natAbs : ℚ) = -n := by
      rw [Nat.cast_natAbs, abs_of_neg h, Int.cast_neg]
    simp [ExactValue.signed, h, hcast]
  · have hcast : (n.natAbs : ℚ) = n := by
      rw [Nat.cast_natAbs, abs_of_nonneg (not_lt.mp h)]
    simp [ExactValue.signed, h, hcast]

theorem signed_div (negative : Bool) (p q : ℚ) :
    ExactValue.signed negative (p / q) = ExactValue.signed negative p / q := by
  cases negative <;> simp [ExactValue.signed, neg_div]

theorem quotient_eq (mantissa : Nat) (e : Int) :
    ((Binary64.quotient mantissa e).1 : ℚ) / (Binary64.quotient mantissa e).2 =
      mantissa * 2 ^ e := by
  cases e with
  | ofNat e => simp [Binary64.quotient]
  | negSucc e => simp [Binary64.quotient, zpow_negSucc, div_eq_mul_inv]

/-- The exact value of a number writes the point that the number stands for. -/
theorem quantity_eq_exact (a : Number) : a.quantity = a.exact := by
  cases a with
  | int n =>
      simp only [quantity, value, ExactValue.quantity, Nat.cast_one, div_one, zpow_zero, mul_one,
        signed_natAbs, exact]
  | float x =>
      cases x with
      | nan => rfl
      | infinity negative => rfl
      | finite negative mantissa e =>
          simp [quantity, value, ExactValue.quantity, exact, quotient_eq]
  | ratio r =>
      simp only [quantity, value, ExactValue.quantity, zpow_zero, mul_one, signed_div,
        signed_natAbs, Rat.num_div_den, exact]
  | decimal d => simp [quantity, value, ExactValue.quantity, exact]

theorem exact_eq_undefined_iff (a : Number) : a.exact = .undefined ↔ a.isNaN = true := by
  rw [← quantity_eq_exact, quantity_eq_undefined_iff, isNaN_iff]

end Number

namespace Atom

/-- Equality of atoms as a test sees it: numbers and truth values by the points they stand
for, all others as they are. The float that is not a number stands for no point. -/
inductive Equals : Atom → Atom → Prop
  | point {a b : Atom} {m n : Number} : a.numeric? = some m → b.numeric? = some n →
      m.exact = n.exact → m.exact ≠ .undefined → Equals a b
  | self {a : Atom} : a.numeric? = none → Equals a a

theorem standing_of_numeric? {a : Atom} {n : Number} (h : a.numeric? = some n) :
    a.standing = .inl n.exact := by
  rw [standing, h, ← Number.quantity_eq_exact]

theorem standing_of_not_numeric {a : Atom} (h : a.numeric? = none) : a.standing = .inr a := by
  rw [standing, h]

theorem isNaN_iff_standing (a : Atom) : a.isNaN = true ↔ a.standing = .inl .undefined := by
  cases a with
  | number n => rw [standing_of_numeric? rfl, Sum.inl.injEq, Number.exact_eq_undefined_iff, isNaN]
  | _ => simp [isNaN, standing, numeric?, Number.quantity_eq_exact, Number.exact]

/-- Atoms are equal if they have one standing and are not the float that is not a number. -/
theorem equals_iff (a b : Atom) : a.Equals b ↔ a.standing = b.standing ∧ a.isNaN = false := by
  rw [← Bool.not_eq_true, isNaN_iff_standing]
  constructor
  · intro h
    cases h with
    | point ha hb h hdefined =>
        rw [standing_of_numeric? ha, standing_of_numeric? hb, h]
        exact ⟨rfl, fun hundefined => hdefined (h.trans (Sum.inl.inj hundefined))⟩
    | self ha => simp [standing_of_not_numeric ha]
  · rintro ⟨h, hdefined⟩
    cases ha : a.numeric? with
    | none =>
        rw [standing_of_not_numeric ha] at h
        cases hb : b.numeric? with
        | none =>
            rw [standing_of_not_numeric hb, Sum.inr.injEq] at h
            exact h ▸ .self ha
        | some n => simp [standing_of_numeric? hb] at h
    | some m =>
        rw [standing_of_numeric? ha] at h hdefined
        cases hb : b.numeric? with
        | none => simp [standing_of_not_numeric hb] at h
        | some n =>
            rw [standing_of_numeric? hb, Sum.inl.injEq] at h
            exact .point ha hb h fun hm => hdefined (congrArg Sum.inl hm)

/-- Atoms are the same key if they are equal, or both the float that is not a number. -/
theorem same_iff_equals (a b : Atom) :
    a.same b = true ↔ a.Equals b ∨ a.isNaN = true ∧ b.isNaN = true := by
  rw [same_iff, equals_iff]
  constructor
  · intro h
    cases ha : a.isNaN with
    | false => exact Or.inl ⟨h, rfl⟩
    | true =>
        rw [isNaN_iff_standing] at ha ⊢
        exact Or.inr ⟨rfl, h ▸ ha⟩
  · rintro (⟨h, -⟩ | ⟨ha, hb⟩)
    · exact h
    · rw [isNaN_iff_standing] at ha hb
      rw [ha, hb]

end Atom

namespace Key

mutual

/-- Equality of keys as a test sees it. -/
inductive Equals : Key → Key → Prop
  | atom {a b : Atom} : a.Equals b → Equals (.atom a) (.atom b)
  | tuple {xs ys : List Key} : List.Forall₂ Merges xs ys → Equals (.tuple xs) (.tuple ys)
  -- every member has a partner in the other bag; the partners are functions because a
  -- relation cannot be defined through a statement that there is one
  | bag {xs ys : List Key} (there back : Key → Key) :
      (∀ x ∈ xs, there x ∈ ys) → (∀ x ∈ xs, Merges x (there x)) →
      (∀ y ∈ ys, back y ∈ xs) → (∀ y ∈ ys, Merges (back y) y) → Equals (.bag xs) (.bag ys)

/-- Equality of keys as a container sees it: both are the one object that is not a number, or
a test finds them equal. -/
inductive Merges : Key → Key → Prop
  | shared {k l : Key} : k.isNaN = true → l.isNaN = true → Merges k l
  | equal {k l : Key} : Equals k l → Merges k l

end

theorem merges_iff (k l : Key) : k.Merges l ↔ k.Equals l ∨ k.isNaN = true ∧ l.isNaN = true := by
  constructor
  · intro h
    cases h with
    | shared hk hl => exact Or.inr ⟨hk, hl⟩
    | equal h => exact Or.inl h
  · rintro (h | ⟨hk, hl⟩)
    · exact .equal h
    · exact .shared hk hl

theorem Equals.not_isNaN {k l : Key} (h : k.Equals l) : k.isNaN = false := by
  cases h with
  | atom h => exact ((Atom.equals_iff _ _).mp h).2
  | _ => rfl

theorem merges_atom_iff (a b : Atom) : (atom a).Merges (atom b) ↔ a.same b = true := by
  have hequals : (atom a).Equals (atom b) ↔ a.Equals b := by
    constructor
    · intro h
      cases h with
      | atom h => exact h
    · exact .atom
  rw [merges_iff, hequals, Atom.same_iff_equals]
  rfl

theorem merges_tuple_iff (xs ys : List Key) :
    (tuple xs).Merges (tuple ys) ↔ List.Forall₂ Merges xs ys := by
  constructor
  · intro h
    cases h with
    | shared h => cases h
    | equal h =>
        cases h with
        | tuple h => exact h
  · intro h
    exact .equal (.tuple h)

theorem merges_bag_iff (xs ys : List Key) :
    (bag xs).Merges (bag ys) ↔
      (∀ x ∈ xs, ∃ y ∈ ys, x.Merges y) ∧ ∀ y ∈ ys, ∃ x ∈ xs, x.Merges y := by
  constructor
  · intro h
    cases h with
    | shared h => cases h
    | equal h =>
        cases h with
        | bag there back hthere hmerges hback hmerges' =>
            exact ⟨fun x hx => ⟨there x, hthere x hx, hmerges x hx⟩,
              fun y hy => ⟨back y, hback y hy, hmerges' y hy⟩⟩
  · rintro ⟨hxs, hys⟩
    choose! there hthere using hxs
    choose! back hback using hys
    exact .equal (.bag there back (fun x hx => (hthere x hx).1) (fun x hx => (hthere x hx).2)
      (fun y hy => (hback y hy).1) fun y hy => (hback y hy).2)

/-- No two members of a well-formed bag are the same key as one key. -/
theorem pairwise_partners {xs : List Key} (h : (bag xs).WellFormed) :
    xs.Pairwise fun x x' => ∀ y, x.same y = true → ¬ x'.same y = true := by
  rw [wellFormed_bag_iff] at h
  refine h.2.imp_of_mem fun {x x'} hx _ hne y hxy hxy' => ?_
  rw [same_trans hxy' (same_symm (h.1 x hx) hxy)] at hne
  cases hne

/-- A bag is the same key as another if each is included in the other. -/
theorem same_bag_iff_inclusions {xs ys : List Key} (hxs : (bag xs).WellFormed)
    (hys : (bag ys).WellFormed) :
    (bag xs).same (bag ys) = true ↔
      (∀ x ∈ xs, ∃ y ∈ ys, x.same y = true) ∧ ∀ y ∈ ys, ∃ x ∈ xs, x.same y = true := by
  rw [same_bag_iff]
  constructor
  · rintro ⟨hlen, htotal⟩
    exact ⟨htotal, exists_partner hlen htotal (pairwise_partners hxs)⟩
  · rintro ⟨htotal, hback⟩
    have hback' : ∀ y ∈ ys, ∃ x ∈ xs, y.same x = true := by
      intro y hy
      obtain ⟨x, hx, hxy⟩ := hback y hy
      exact ⟨x, hx, same_symm (((wellFormed_bag_iff xs).mp hxs).1 x hx) hxy⟩
    refine ⟨le_antisymm ?_ ?_, htotal⟩
    · exact length_le_of_partners htotal (pairwise_partners hxs)
    · exact length_le_of_partners hback' (pairwise_partners hys)

/-- Only atoms, only sequences and only bags are merged with each other. -/
theorem Merges.forms {k l : Key} (h : k.Merges l) :
    (∃ a b, k = atom a ∧ l = atom b) ∨ (∃ xs ys, k = tuple xs ∧ l = tuple ys) ∨
      ∃ xs ys, k = bag xs ∧ l = bag ys := by
  cases h with
  | shared hk hl => cases k <;> cases l <;> simp_all [isNaN]
  | equal h => cases h <;> simp

/-- Two keys are the same exactly if a container merges them. -/
theorem same_iff_merges {k l : Key} (hk : k.WellFormed) (hl : l.WellFormed) :
    k.same l = true ↔ k.Merges l := by
  induction k using Key.induction generalizing l with
  | atom a =>
      cases l with
      | atom b => rw [merges_atom_iff, same]
      | _ => exact iff_of_false (by simp [same]) fun h => by simpa using h.forms
  | tuple xs ih =>
      cases l with
      | tuple ys =>
          rw [wellFormed_tuple_iff] at hk hl
          rw [same_tuple_iff, merges_tuple_iff, List.forall₂_iff_get, List.forall₂_iff_get]
          refine and_congr_right fun _ => forall₃_congr fun i hi hj => ?_
          have hx := List.get_mem xs ⟨i, hi⟩
          have hy := List.get_mem ys ⟨i, hj⟩
          exact ih _ hx (hk _ hx) (hl _ hy)
      | _ => exact iff_of_false (by simp [same]) fun h => by simpa using h.forms
  | bag xs ih =>
      cases l with
      | bag ys =>
          have hmembers : ∀ x ∈ xs, ∀ y ∈ ys, (x.same y = true ↔ x.Merges y) := by
            intro x hx y hy
            exact ih x hx (((wellFormed_bag_iff xs).mp hk).1 x hx)
              (((wellFormed_bag_iff ys).mp hl).1 y hy)
          rw [same_bag_iff_inclusions hk hl, merges_bag_iff]
          refine and_congr ?_ ?_
          · refine forall₂_congr fun x hx => exists_congr fun y => and_congr_right fun hy => ?_
            exact hmembers x hx y hy
          · refine forall₂_congr fun y hy => exists_congr fun x => and_congr_right fun hx => ?_
            exact hmembers x hx y hy
      | _ => exact iff_of_false (by simp [same]) fun h => by simpa using h.forms

/-- A test finds two keys equal exactly if `Key.equal` does. -/
theorem equal_iff_equals {k l : Key} (hk : k.WellFormed) (hl : l.WellFormed) :
    k.equal l = true ↔ k.Equals l := by
  rw [equal, Bool.and_eq_true, Bool.not_eq_true', same_iff_merges hk hl, merges_iff]
  constructor
  · rintro ⟨h | ⟨hnan, -⟩, hdefined⟩
    · exact h
    · rw [hnan] at hdefined
      cases hdefined
  · intro h
    exact ⟨Or.inl h, h.not_isNaN⟩

theorem same_iff_of_isNaN {k : Key} (hk : k.isNaN = true) (l : Key) :
    k.same l = true ↔ l.isNaN = true := by
  cases k with
  | atom a =>
      cases l with
      | atom b =>
          have hnot : ¬ a.Equals b := by
            intro h
            rw [isNaN, ((Atom.equals_iff a b).mp h).2] at hk
            cases hk
          have hnan : a.isNaN = true := hk
          rw [same, Atom.same_iff_equals]
          simp [hnot, hnan, isNaN]
      | _ => simp [same, isNaN]
  | _ => cases hk

/-- A container and a test disagree about two bare floats that are not numbers, and about no
other pair of keys. -/
theorem same_eq_equal_iff (k l : Key) :
    k.same l = k.equal l ↔ ¬ (k.isNaN = true ∧ l.isNaN = true) := by
  rw [equal]
  by_cases hk : k.isNaN = true
  · rw [← same_iff_of_isNaN hk l, hk]
    cases k.same l <;> simp
  · simp [hk]

/-- Being the same key is an equivalence of the keys whose bags hold no key twice. -/
theorem same_equivalence :
    Equivalence fun k l : {k : Key // k.WellFormed} => k.1.same l.1 = true where
  refl k := same_self k.1
  symm {k _} h := same_symm k.2 h
  trans h h' := same_trans h h'

end Key

end EdnLint
