import EdnLint.Number.Basic
import EdnLint.Text.Digit
import EdnLint.Text.Space

/-!
# Numerals

What the readers of numbers share: signs, the value of a run of digits, and the
most generous way to write an integer, with blanks around it, a sign, single
underscores between the digits and digits of every script.
-/

namespace EdnLint

namespace Numeral

/-- The number that digits write in a base. -/
def ofDigits (base : Nat) (digits : List Nat) : Nat :=
  digits.foldl (fun n d => base * n + d) 0

/-- Whether a text starts with a minus, and the text behind its sign. -/
def takeSign : Text → Bool × Text
  | [] => (false, [])
  | c :: t =>
      if c = '-' then (true, t)
      else if c = '+' then (false, t)
      else (false, c :: t)

/-- A number with a sign. -/
def signed (negative : Bool) (n : Nat) : Int := if negative then -(n : Int) else n

/-- The value of an ASCII digit in a base up to sixteen. -/
def digit? (base : Nat) (c : CodePoint) : Option Nat :=
  c.hexValue?.filter (· < base)

/-- Digits with single underscores between them. -/
def grouped? (base : Nat) : Text → Option (List Nat)
  | [] => none
  | [c] => (digit? base c).map ([·])
  | c :: d :: t => do
      let v ← digit? base c
      if d = '_' then return v :: (← grouped? base t)
      else return v :: (← grouped? base (d :: t))

/-- A code point of a numeral with digits and blanks of other scripts replaced by
their plain ones. -/
def plain (c : CodePoint) : CodePoint :=
  if c.val < 128 then c
  else if c.isSpace then ' '
  else match c.digitValue? with
    | some d => (CodePoint.ofNat? (48 + d)).getD c
    | none => c

/-- The blanks around a numeral. -/
def isBlank (c : CodePoint) : Bool := c = ' ' || c.within 9 13

/-- The text behind `0x` and an underscore, in base sixteen. -/
def dropBaseMark (base : Nat) (t : Text) : Text :=
  match t with
  | z :: x :: u =>
      if base = 16 && z = '0' && (x = 'x' || x = 'X') then
        match u with
        | c :: v => if c = '_' then v else u
        | [] => u
      else t
  | _ => t

/-- The integer that a numeral of base ten or sixteen writes. A decimal numeral
has at most `Number.maxDigits` digits. -/
def generous? (base : Nat) (t : Text) : Option Int :=
  let (negative, t) := takeSign (Text.trim isBlank (t.map plain))
  (grouped? base (dropBaseMark base t)).bind fun digits =>
    if base = 10 && Number.maxDigits < digits.length then none
    else some (signed negative (ofDigits base digits))

end Numeral

end EdnLint
