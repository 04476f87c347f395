import EdnLint.Number.Binary64
import EdnLint.Number.Decimal

/-!
# Numbers

A number is an integer, a float, a ratio or a decimal. Numbers of different
kinds are compared by their exact values. `Number.value` writes each value as a
sign and `num / den · 10 ^ exponent`, and `comparePowerOfTen` compares such
values without ever building a power of ten that is longer than the numbers
already there, so a decimal with an enormous exponent costs nothing.
-/

namespace EdnLint

/-- A number of a document. -/
inductive Number where
  | int (n : Int)
  | float (x : Binary64)
  | ratio (r : Rat)
  | decimal (d : Decimal)
  deriving DecidableEq, Repr

/-- The exact value of a number: not a number, an infinity, or
`± num / den · 10 ^ exponent` with a positive `den`. -/
inductive ExactValue where
  | nan
  | infinity (negative : Bool)
  | finite (negative : Bool) (num den : Nat) (exponent : Int)
  deriving DecidableEq, Repr

namespace Number

/-- The exact value of a number. -/
def value : Number → ExactValue
  | .int n => .finite (n < 0) n.natAbs 1 0
  | .float .nan => .nan
  | .float (.infinity negative) => .infinity negative
  | .float (.finite negative mantissa exponent) =>
      let (num, den) := Binary64.quotient mantissa exponent
      .finite negative num den 0
  | .ratio r => .finite (r.num < 0) r.num.natAbs r.den 0
  | .decimal d => .finite d.negative d.coefficient 1 d.exponent

/-- `a · 10 ^ k` against `b`. -/
def comparePowerOfTen (a b : Nat) (k : Int) : Ordering :=
  if a = 0 then compare 0 b
  else if b = 0 then .gt
  else
    match k with
    | .ofNat n =>
        if Binary64.digitCount b ≤ n then .gt else compare (a * Nat.pow 10 n) b
    | .negSucc n =>
        if Binary64.digitCount a ≤ n + 1 then .lt else compare a (b * Nat.pow 10 (n + 1))

end Number

namespace ExactValue

/-- Whether the value is zero, whatever its sign. -/
def isZero : ExactValue → Bool
  | .finite _ num _ _ => num == 0
  | _ => false

/-- The order of two values; there is none with a value that is not a number. -/
def compare? : ExactValue → ExactValue → Option Ordering
  | .nan, _ => none
  | _, .nan => none
  | .infinity a, .infinity b => some (compare b a)
  | .infinity negative, .finite .. => some (if negative then .lt else .gt)
  | .finite .., .infinity negative => some (if negative then .gt else .lt)
  | .finite neg₁ num₁ den₁ exp₁, .finite neg₂ num₂ den₂ exp₂ =>
      if num₁ = 0 && num₂ = 0 then some .eq
      else if num₁ = 0 then some (if neg₂ then .gt else .lt)
      else if num₂ = 0 then some (if neg₁ then .lt else .gt)
      else if neg₁ != neg₂ then some (if neg₁ then .lt else .gt)
      else
        let order := Number.comparePowerOfTen (num₁ * den₂) (num₂ * den₁) (exp₁ - exp₂)
        some (if neg₁ then order.swap else order)

end ExactValue

namespace Number

/-- Whether the number is the float that is not a number. -/
def isNaN : Number → Bool
  | .float .nan => true
  | _ => false

/-- Whether the number is zero. -/
def isZero (a : Number) : Bool := a.value.isZero

/-- The order of two numbers by exact value. -/
def compare? (a b : Number) : Option Ordering := a.value.compare? b.value

/-- Whether two numbers count as one key: equal values, or both not a number. -/
def same (a b : Number) : Bool :=
  (a.isNaN && b.isNaN) || a.compare? b == some .eq

/-- A decimal cannot be ordered against the float that is not a number. -/
def orderable : Number → Number → Bool
  | .decimal _, .float .nan => false
  | .float .nan, .decimal _ => false
  | _, _ => true

/-- Whether `a` is less than `b`. -/
def less (a b : Number) : Except Fault Bool :=
  if orderable a b then .ok (a.compare? b == some .lt) else .error .unordered

/-- The most digits an integer is written with. -/
def maxDigits : Nat := 4300

/-- The decimal text of an integer, if it is not too long. -/
def intText (n : Int) : Except Fault Text :=
  if maxDigits < Binary64.digitCount n.natAbs then .error .digitLimit else .ok (Text.ofInt n)

/-- The parts of a ratio with a stroke between them; a denominator of one is not
written. -/
def ratioText (r : Rat) : Except Fault Text := do
  let num ← intText r.num
  if r.den = 1 then return num
  let den ← intText r.den
  return num ++ CodePoint.ofChar '/' :: den

/-- The text of a number. -/
def text : Number → Except Fault Text
  | .int n => intText n
  | .float x => .ok x.text
  | .ratio r => ratioText r
  | .decimal d => .ok d.text

end Number

end EdnLint
