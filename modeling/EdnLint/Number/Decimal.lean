import EdnLint.Fault
import EdnLint.Text.Basic

/-!
# Decimal numbers

A decimal keeps the digits it was written with: `1.50` and `1.5` are equal in
value and different as decimals. Its text is scientific when the exponent is
positive or the leading digit stands more than six places behind the point.
-/

namespace EdnLint

/-- The number `± coefficient · 10 ^ exponent`. -/
structure Decimal where
  negative : Bool
  coefficient : Nat
  exponent : Int
  deriving DecidableEq, Repr

namespace Decimal

/-- The digits of the coefficient. -/
def digits (d : Decimal) : Text := Text.ofNat d.coefficient

/-- The exponent of the leading digit. -/
def leadExponent (d : Decimal) : Int := d.exponent + d.digits.length - 1

/-- The largest exponent a leading digit may have. -/
def maxLead : Int := 999999999999999999

/-- The least exponent of a last digit. -/
def minExponent : Int := -1999999999999999997

/-- A decimal whose exponents are in range. -/
def make (negative : Bool) (coefficient : Nat) (exponent : Int) : Except Fault Decimal :=
  let d : Decimal := ⟨negative, coefficient, exponent⟩
  if maxLead < d.leadExponent || exponent < minExponent then .error .decimalRange else .ok d

/-- The text of a decimal. -/
def text (d : Decimal) : Text :=
  let digits := d.digits
  let places : Int := d.exponent + digits.length
  let positional := d.exponent ≤ 0 && -6 < places
  let point : Int := if positional then places else 1
  let body : Text :=
    if point ≤ 0 then ("0." : Text) ++ Text.zeros point.natAbs ++ digits
    else if digits.length ≤ point.toNat then
      digits ++ Text.zeros (point.toNat - digits.length)
    else digits.take point.toNat ++ CodePoint.ofChar '.' :: digits.drop point.toNat
  let shift := places - point
  let scale : Text :=
    if shift = 0 then []
    else if shift < 0 then CodePoint.ofChar 'E' :: Text.ofInt shift
    else ("E+" : Text) ++ Text.ofInt shift
  (if d.negative then ("-" : Text) else []) ++ body ++ scale

end Decimal

end EdnLint
