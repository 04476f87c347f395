import EdnLint.Text.Basic

/-!
# Named values in order

A list of names with values, in the order in which the names came up. A name that
is put again keeps its place and takes the new value, so a list that is built with
`put` alone has each name once.
-/

namespace EdnLint

/-- Values by name, in order. -/
abbrev Members (α : Type) := List (Text × α)

namespace Members

variable {α : Type}

/-- The value under a name. -/
def get? (name : Text) : Members α → Option α
  | [] => none
  | (known, value) :: rest => if known = name then some value else get? name rest

/-- Sets the value under a name: a known name keeps its place, a new one comes
last. -/
def put (name : Text) (value : α) : Members α → Members α
  | [] => [(name, value)]
  | (known, old) :: rest =>
      if known = name then (known, value) :: rest else (known, old) :: put name value rest

/-- The names in order. -/
def names (members : Members α) : List Text := members.map (·.1)

@[simp] theorem get?_nil (name : Text) : get? name ([] : Members α) = none := rfl

@[simp] theorem get?_put_self (name : Text) (value : α) (members : Members α) :
    get? name (put name value members) = some value := by
  induction members with
  | nil => simp [put, get?]
  | cons member rest ih =>
      obtain ⟨known, old⟩ := member
      by_cases h : known = name <;> simp [put, get?, h, ih]

theorem get?_put_of_ne {name other : Text} (h : other ≠ name) (value : α)
    (members : Members α) : get? other (put name value members) = get? other members := by
  induction members with
  | nil => simp [put, get?, h.symm]
  | cons member rest ih =>
      obtain ⟨known, old⟩ := member
      by_cases hk : known = name
      · subst hk
        simp [put, get?, h.symm]
      · simp [put, get?, hk, ih]

theorem isSome_get?_iff {name : Text} {members : Members α} :
    (get? name members).isSome ↔ name ∈ names members := by
  induction members with
  | nil => simp [names]
  | cons member rest ih =>
      obtain ⟨known, value⟩ := member
      by_cases h : known = name
      · simp [get?, names, h]
      · have h' : ¬ name = known := fun e => h e.symm
        simpa [get?, names, h, h'] using ih

end Members

end EdnLint
