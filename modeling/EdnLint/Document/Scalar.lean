import EdnLint.Datum.Basic
import EdnLint.Number.Numeral

/-!
# Scalars as they are written

A token is tried as a literal name, an integer, a ratio, a float or decimal, and
a keyword, in this order; what starts like a number and is none is refused, and
everything else is a symbol. Digits may come from any script.

The readers of numbers return `none` for a token of another form. A token that
has the form and cannot be converted is a fault, except that a ratio over zero is
refused as a number.
-/

namespace EdnLint

namespace Scalar

open Numeral (ofDigits takeSign signed)

/-- Why a token is refused. -/
inductive Refusal where
  | number
  | keyword
  | fault (fault : Fault)
  deriving DecidableEq, Repr

/-- The decimal digits in front of a text, as values, and what follows them. -/
def takeDigits : Text → List Nat × Text
  | [] => ([], [])
  | c :: t =>
      match c.digitValue? with
      | some d =>
          let (ds, rest) := takeDigits t
          (d :: ds, rest)
      | none => ([], c :: t)

/-- Digits converted to a number, unless there are too many. -/
def convert (digits : List Nat) : Except Refusal Nat :=
  if Number.maxDigits < digits.length then .error (.fault .digitLimit)
  else .ok (ofDigits 10 digits)

/-- All code points as hexadecimal digits. -/
def hexDigits? (t : Text) : Option (List Nat) :=
  if t.isEmpty then none else t.mapM CodePoint.hexValue?

/-- The text without a final `mark`, if it ends so. -/
def dropMark (mark : CodePoint) (t : Text) : Text :=
  if t.getLast? = some mark then t.dropLast else t

/-- The digits behind `0x`, if the text starts so and the rest is hexadecimal. -/
def hexNumeral? : Text → Option (List Nat)
  | z :: x :: t =>
      if z = '0' && (x = 'x' || x = 'X') then hexDigits? t else none
  | _ => none

/-- A token that is an integer: decimal or hexadecimal digits, with an optional
sign in front and an optional `N` behind. -/
def integer? (token : Text) : Option (Except Refusal Number) :=
  let (negative, t) := takeSign token
  let t := dropMark 'N' t
  match hexNumeral? t with
  | some digits => some (.ok (.int (signed negative (ofDigits 16 digits))))
  | none =>
      match takeDigits t with
      | (d :: ds, []) => some ((convert (d :: ds)).map fun n => .int (signed negative n))
      | _ => none

/-- A token that is a ratio: two runs of digits with a stroke between them. -/
def ratio? (token : Text) : Option (Except Refusal Number) :=
  let (negative, t) := takeSign token
  match takeDigits t with
  | (d :: ds, c :: t) =>
      if c = '/' then
        match takeDigits t with
        | (e :: es, []) => some do
            let num ← convert (d :: ds)
            let den ← convert (e :: es)
            if den = 0 then .error .number
            else .ok (.ratio (mkRat (signed negative num) den))
        | _ => none
      else none
  | _ => none

/-- A point and the digits behind it, if the text starts with a point. -/
def takeFraction : Text → List Nat × Text
  | [] => ([], [])
  | c :: t => if c = '.' then takeDigits t else ([], c :: t)

/-- An exponent mark, a sign and digits. The mark without digits is not taken. -/
def takeExponent (t : Text) : Int × Text :=
  match t with
  | [] => (0, [])
  | c :: u =>
      if c = 'e' || c = 'E' then
        let (negative, u) := takeSign u
        match takeDigits u with
        | ([], _) => (0, t)
        | (ds, rest) => (signed negative (ofDigits 10 ds), rest)
      else (0, t)

/-- A token that is a float, or a decimal with `M` behind it. -/
def decimal? (token : Text) : Option (Except Refusal Number) :=
  let (negative, t) := takeSign token
  match takeDigits t with
  | ([], _) => none
  | (whole, t) =>
      let (fraction, t) := takeFraction t
      let (exponent, t) := takeExponent t
      let digits := ofDigits 10 (whole ++ fraction)
      let exponent := exponent - fraction.length
      if t.isEmpty then some (.ok (.float (Binary64.ofDecimal negative digits exponent)))
      else if t = ("M" : Text) then
        match Decimal.make negative digits exponent with
        | .ok d => some (.ok (.decimal d))
        | .error fault => some (.error (.fault fault))
      else none

/-- The number a token writes, if it has the form of one. -/
def number? (token : Text) : Option (Except Refusal Number) :=
  (integer? token <|> ratio? token) <|> decimal? token

/-- Whether a token starts like a number. -/
def startsLikeNumber : Text → Bool
  | [] => false
  | [c] => c.isDigit
  | c :: d :: _ => c.isDigit || ((c = '+' || c = '-') && d.isDigit)

/-- The scalar a token writes. -/
def ofToken (token : Text) : Except Refusal Atom :=
  if token = ("nil" : Text) then .ok .nil
  else if token = ("true" : Text) then .ok (.bool true)
  else if token = ("false" : Text) then .ok (.bool false)
  else
    match number? token with
    | some result => result.map .number
    | none =>
        if token.head? = some (CodePoint.ofChar ':') then
          if token.length = 1 || token.getLast? = some (CodePoint.ofChar '/') then .error .keyword
          else .ok (.keyword token.tail)
        else if startsLikeNumber token then .error .number
        else .ok (.symbol token)

/-- What `##` and a token stand for. -/
def ofSymbolic? (token : Text) : Option Atom :=
  if token = ("Inf" : Text) then some (.number (.float (.infinity false)))
  else if token = ("-Inf" : Text) then some (.number (.float (.infinity true)))
  else if token = ("NaN" : Text) then some (.number (.float .nan))
  else none

/-- What a backslash and a letter stand for in a string. -/
def escape? (c : CodePoint) : Option CodePoint :=
  if c = 't' then some '\t'
  else if c = 'r' then some '\r'
  else if c = 'n' then some '\n'
  else if c = 'b' then some (CodePoint.ofChar '\x08')
  else if c = 'f' then some (CodePoint.ofChar '\x0c')
  else if c = '\\' then some '\\'
  else if c = '"' then some '"'
  else none

/-- The characters that have a name. -/
def namedCharacters : List (Text × CodePoint) :=
  [("newline", '\n'), ("space", ' '), ("tab", '\t'), ("return", '\r'),
   ("backspace", CodePoint.ofChar '\x08'), ("formfeed", CodePoint.ofChar '\x0c')]

/-- The code point with an integer number, if there is one. -/
def codePoint? : Int → Option CodePoint
  | .ofNat n => CodePoint.ofNat? n
  | .negSucc _ => none

/-- The character that a backslash and a name write. -/
def character? (name : Text) : Option Text :=
  match name with
  | [c] => some [c]
  | _ =>
      match namedCharacters.find? fun (known, _) => known == name with
      | some (_, c) => some [c]
      | none =>
          if name.head? = some (CodePoint.ofChar 'u') && name.length = 5 then
            (Numeral.generous? 16 name.tail).bind fun n => (codePoint? n).map ([·])
          else none

/-- The code point that exactly four hexadecimal digits write. -/
def fourHex? (digits : Text) : Option CodePoint :=
  if digits.length = 4 then
    (hexDigits? digits).bind fun ds => CodePoint.ofNat? (ofDigits 16 ds)
  else none

end Scalar

end EdnLint
