import EdnLint.Text.Basic

/-!
# Binary floating-point numbers

A float is kept as its exact value, a sign and `mantissa · 2 ^ exponent`, so
comparisons with integers, ratios and decimals lose nothing. `roundQuotient`
gives the float nearest to a quotient, ties to the even mantissa; every decimal
numeral is read through it. `shortest` gives the fewest decimal digits that read
back as the same float, and of two such numerals the nearer.
-/

namespace EdnLint

/-- A number of the 64-bit binary format. -/
inductive Binary64 where
  | nan
  | infinity (negative : Bool)
  | finite (negative : Bool) (mantissa : Nat) (exponent : Int)
  deriving DecidableEq, Repr

namespace Binary64

/-- The least exponent, which zeros and subnormal numbers have. -/
def minExponent : Int := -1074

/-- The largest exponent of a finite number. -/
def maxExponent : Int := 971

/-- Zero with a sign. -/
def zero (negative : Bool) : Binary64 := .finite negative 0 minExponent

/-- `num / den · 2 ^ -exponent` as a quotient of naturals. -/
def scaleBy (num den : Nat) : Int → Nat × Nat
  | .ofNat e => (num, den * Nat.pow 2 e)
  | .negSucc e => (num * Nat.pow 2 (e + 1), den)

/-- The natural number nearest to `num / den`, a half going to the even one. -/
def roundHalfEven (num den : Nat) : Nat :=
  let whole := num / den
  let twice := 2 * (num % den)
  if twice < den then whole
  else if den < twice then whole + 1
  else whole + whole % 2

/-- The float nearest to `num / den`, with a sign; `den` is positive. -/
def roundQuotient (negative : Bool) (num den : Nat) : Binary64 :=
  if num = 0 then zero negative
  else
    let low : Int := (num.log2 : Int) - den.log2 - 53
    let (n, d) := scaleBy num den low
    let fit := if n / d < Nat.pow 2 53 then low else low + 1
    let exponent := max fit minExponent
    let (n, d) := scaleBy num den exponent
    let mantissa := roundHalfEven n d
    let (mantissa, exponent) :=
      if mantissa = Nat.pow 2 53 then (Nat.pow 2 52, exponent + 1) else (mantissa, exponent)
    if maxExponent < exponent then .infinity negative
    else .finite negative mantissa exponent

/-- How many decimal digits a number is written with. -/
def digitCount (n : Nat) : Nat := (Nat.toDigits 10 n).length

/-- The float nearest to `digits · 10 ^ exponent`. Numerals far outside the range
are settled by their size, without the power of ten. -/
def ofDecimal (negative : Bool) (digits : Nat) (exponent : Int) : Binary64 :=
  let top : Int := digitCount digits + exponent
  if digits = 0 then zero negative
  else if 310 < top then .infinity negative
  else if top < -325 then zero negative
  else
    match exponent with
    | .ofNat e => roundQuotient negative (digits * Nat.pow 10 e) 1
    | .negSucc e => roundQuotient negative digits (Nat.pow 10 (e + 1))

/-- The value of a finite magnitude as a quotient of naturals. -/
def quotient (mantissa : Nat) : Int → Nat × Nat
  | .ofNat e => (mantissa * Nat.pow 2 e, 1)
  | .negSucc e => (mantissa, Nat.pow 2 (e + 1))

/-- The quotient divided by `10 ^ exponent`. -/
def scaleByTen (num den : Nat) : Int → Nat × Nat
  | .ofNat e => (num, den * Nat.pow 10 e)
  | .negSucc e => (num * Nat.pow 10 (e + 1), den)

/-- The exponent of the leading decimal digit of `num / den`, found by correcting
an estimate from the binary logarithms. -/
def leadingExponent (num den : Nat) : Int :=
  let estimate : Int := ((num.log2 : Int) - den.log2) * 30103 / 100000
  let reaches (e : Int) : Bool :=
    let (n, d) := scaleByTen num den e
    d ≤ n
  if reaches (estimate + 1) then estimate + 1
  else if reaches estimate then estimate
  else estimate - 1

/-- The decimal grid points on both sides of a value, tried with one more digit
each time: the first that lies among the reals that round to the value, and of
two the nearer, an exact tie going to the even one. `fuel` counts the digits that
may still be added, and `count` those tried. -/
def shortestFrom (mantissa : Nat) (exponent : Int) (lead : Int) :
    (count fuel : Nat) → Nat × Int
  | count, 0 =>
      let grid := lead - count + 1
      let (n, d) := quotient mantissa exponent
      let (n, d) := scaleByTen n d grid
      (roundHalfEven n d, grid)
  | count, fuel + 1 =>
      let grid := lead - count + 1
      -- quarters of the last place keep the narrower gap below a power of two exact
      let (n, d) := quotient (4 * mantissa) (exponent - 2)
      let (n, d) := scaleByTen n d grid
      let (hi, hd) := quotient (4 * mantissa + 2) (exponent - 2)
      let (hi, hd) := scaleByTen hi hd grid
      let gap := if mantissa = Nat.pow 2 52 && minExponent < exponent then 1 else 2
      let (lo, ld) := quotient (4 * mantissa - gap) (exponent - 2)
      let (lo, ld) := scaleByTen lo ld grid
      let closed := mantissa % 2 == 0
      let below := n / d
      let above := below + 1
      let belowFits := if closed then lo ≤ below * ld else lo < below * ld
      let aboveFits := if closed then above * hd ≤ hi else above * hd < hi
      let twice := 2 * (n % d)
      let nearer := if twice < d then below else if d < twice then above else below + below % 2
      if belowFits && aboveFits then (nearer, grid)
      else if belowFits then (below, grid)
      else if aboveFits then (above, grid)
      else shortestFrom mantissa exponent lead (count + 1) fuel

/-- The fewest decimal digits that read back as the magnitude, as a numeral
`digits · 10 ^ exponent`. Seventeen digits always suffice. -/
def shortest (mantissa : Nat) (exponent : Int) : Nat × Int :=
  let (n, d) := quotient mantissa exponent
  shortestFrom mantissa exponent (leadingExponent n d) 1 17

/-- The digits of a numeral without trailing zeros, and the exponent of its
leading digit. -/
def leadingDigits (digits : Nat) (exponent : Int) : Text × Int :=
  let written := Text.ofNat digits
  let stripped := (written.reverse.dropWhile (· = CodePoint.ofChar '0')).reverse
  (stripped, exponent + written.length - 1)

/-- A decimal exponent, with its sign and at least two digits. -/
def exponentText (e : Int) : Text :=
  let digits := Text.ofNat e.natAbs
  let padded := if digits.length < 2 then CodePoint.ofChar '0' :: digits else digits
  (if e < 0 then CodePoint.ofChar '-' else '+') :: padded

/-- A magnitude is written positionally if its leading digit stands between the
fourth place behind the point and the sixteenth before it, and with an exponent
otherwise. A positional number keeps one place behind the point. -/
def magnitudeText (mantissa : Nat) (exponent : Int) : Text :=
  if mantissa = 0 then "0.0"
  else
    let (digits, exponent) := shortest mantissa exponent
    let (digits, lead) := leadingDigits digits exponent
    if lead < -4 || 16 ≤ lead then
      let head := digits.take 1
      let tail := digits.drop 1
      let fraction := if tail.isEmpty then [] else CodePoint.ofChar '.' :: tail
      head ++ fraction ++ CodePoint.ofChar 'e' :: exponentText lead
    else if lead < 0 then
      ("0." : Text) ++ Text.zeros (lead.natAbs - 1) ++ digits
    else
      let places := lead.toNat + 1
      let whole := digits.take places
      let padding := Text.zeros (places - digits.length)
      let fraction := digits.drop places
      whole ++ padding ++ CodePoint.ofChar '.' :: (if fraction.isEmpty then ("0" : Text) else fraction)

/-- The text of a float. -/
def text : Binary64 → Text
  | .nan => "nan"
  | .infinity negative => if negative then "-inf" else "inf"
  | .finite negative mantissa exponent =>
      (if negative then ("-" : Text) else []) ++ magnitudeText mantissa exponent

end Binary64

end EdnLint
