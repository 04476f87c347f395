import EdnLint.Text.Basic

/-!
# Positions in a text

A position is what a left-to-right walk has counted so far: lines and columns
from one, code points from zero. `Position.next` is the only way to move, and
`Position.after` walks over a whole text, so line, column and offset cannot
drift apart.
-/

namespace EdnLint

/-- A place between two code points of a text. -/
structure Position where
  line : Nat
  col : Nat
  offset : Nat
  deriving DecidableEq, Repr

namespace Position

/-- The beginning of a text. -/
def first : Position := ⟨1, 1, 0⟩

/-- The position behind the code point `c`; only a line feed starts a line. -/
def next (p : Position) (c : CodePoint) : Position :=
  if c = '\n' then ⟨p.line + 1, 1, p.offset + 1⟩ else ⟨p.line, p.col + 1, p.offset + 1⟩

/-- The position behind a whole text. -/
def after (p : Position) : Text → Position
  | [] => p
  | c :: t => (p.next c).after t

@[simp] theorem after_nil (p : Position) : p.after [] = p := rfl

@[simp] theorem after_cons (p : Position) (c : CodePoint) (t : Text) :
    p.after (c :: t) = (p.next c).after t := rfl

theorem after_append (p : Position) (s t : Text) :
    p.after (s ++ t) = (p.after s).after t := by
  induction s generalizing p with
  | nil => rfl
  | cons c s ih => simp [ih]

@[simp] theorem next_offset (p : Position) (c : CodePoint) :
    (p.next c).offset = p.offset + 1 := by
  unfold next
  split <;> rfl

@[simp] theorem after_offset (p : Position) (t : Text) :
    (p.after t).offset = p.offset + t.length := by
  induction t generalizing p with
  | nil => rfl
  | cons c t ih => simp [ih]; omega

end Position

end EdnLint
