import EdnLint.Number.Numeral
import EdnLint.Text.Digit

/-!
# Hosts in brackets

What an authority holds in square brackets is an address of version six, or an address
of a later version with the version in front of it. The former are eight groups of
hexadecimal digits, of which the last two may be written as an address of version four.
A run of groups that are zero may be left out once, and two colons then stand for it. A
percent sign leads in the zone that an address is of.
-/

namespace EdnLint

namespace Uri

namespace Host

/-- A group of an address: one to four hexadecimal digits. -/
def isGroup (t : Text) : Bool :=
  !t.isEmpty && t.length ≤ 4 && t.all fun c => c.hexValue?.isSome

/-- A byte in decimal digits, with no zero in front. -/
def isByte (t : Text) : Bool :=
  !t.isEmpty && t.length ≤ 3 && t.all CodePoint.isAsciiDigit &&
    (t.length = 1 || t.head? != some (CodePoint.ofChar '0')) &&
    Numeral.ofDigits 10 (t.filterMap CodePoint.hexValue?) ≤ 255

/-- An address of version four. -/
def isVersion4 (t : Text) : Bool :=
  let bytes := Text.splitOn '.' t
  bytes.length = 4 && bytes.all isByte

/-- How many groups some pieces of an address are, if they are groups. At the end of the
address the last piece may be two of them. -/
def countGroups? (atEnd : Bool) : List Text → Option Nat
  | [] => some 0
  | [piece] =>
      if isGroup piece then some 1 else if atEnd && isVersion4 piece then some 2 else none
  | piece :: pieces =>
      if isGroup piece then (countGroups? atEnd pieces).map (· + 1) else none

/-- What stands before and behind the first two colons in a row. -/
def splitGap? : Text → Option (Text × Text)
  | a :: b :: t =>
      if a = ':' && b = ':' then some ([], t)
      else (splitGap? (b :: t)).map fun (before, behind) => (a :: before, behind)
  | _ => none

/-- An address of version six without a zone. -/
def isVersion6 (t : Text) : Bool :=
  let pieces (t : Text) : List Text := if t.isEmpty then [] else Text.splitOn ':' t
  match splitGap? t with
  | none => countGroups? true (pieces t) == some 8
  | some (before, behind) =>
      match countGroups? false (pieces before), countGroups? true (pieces behind) with
      | some m, some n => m + n < 8
      | _, _ => false

/-- An address of version six. -/
def isAddress (t : Text) : Bool :=
  match Text.splitFirst? '%' t with
  | none => isVersion6 t
  | some (address, zone) =>
      isVersion6 address && !zone.isEmpty && !zone.contains (CodePoint.ofChar '%')

/-- An address of a later version, behind its first letter. -/
def isLater (t : Text) : Bool :=
  let version := t.takeWhile fun c => c.hexValue?.isSome
  !version.isEmpty &&
    match t.drop version.length with
    | dot :: address => dot = '.' && !address.isEmpty
    | [] => false

end Host

/-- What may stand between square brackets. -/
def isHost : Text → Bool
  | [] => false
  | c :: t => if c = 'v' then Host.isLater t else Host.isAddress (c :: t)

end Uri

end EdnLint
