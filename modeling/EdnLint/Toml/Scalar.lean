import EdnLint.Number.Numeral
import EdnLint.Settings.Basic
import EdnLint.Toml.Error

/-!
# Numbers, dates and times of TOML

Every reader here takes the longest text of its form in front of what is to be
read and gives none if there is no such text. What follows is not looked at: a
number with a letter behind it is refused by whoever goes on.
-/

namespace EdnLint

namespace Toml

open Numeral (ofDigits takeSign signed)

/-- The text behind a mark. -/
def behind? (mark : CodePoint) : Text → Option Text
  | [] => none
  | c :: t => if c = mark then some t else none

/-- The value of an ASCII digit below a base. -/
def digitBelow? (base : Nat) (c : CodePoint) : Option Nat := c.hexValue?.filter (· < base)

/-- Further digits, each with at most one underscore in front. -/
def moreDigits (base : Nat) : Text → List Nat × Text
  | [] => ([], [])
  | [c] =>
      match digitBelow? base c with
      | some d => ([d], [])
      | none => ([], [c])
  | c :: e :: t =>
      match digitBelow? base c with
      | some d =>
          let (ds, rest) := moreDigits base (e :: t)
          (d :: ds, rest)
      | none =>
          match digitBelow? base e with
          | some d =>
              if c = '_' then
                let (ds, rest) := moreDigits base t
                (d :: ds, rest)
              else ([], c :: e :: t)
          | none => ([], c :: e :: t)

/-- Digits with single underscores between them, at least one. -/
def digits? (base : Nat) : Text → Option (List Nat × Text)
  | [] => none
  | c :: t =>
      (digitBelow? base c).map fun d =>
        let (ds, rest) := moreDigits base t
        (d :: ds, rest)

/-- The base that a letter behind a zero stands for. -/
def baseOf? (c : CodePoint) : Option Nat :=
  if c = 'x' then some 16
  else if c = 'o' then some 8
  else if c = 'b' then some 2
  else none

/-- An integer in another base than ten. -/
def basedInteger? : Text → Option (Nat × Text)
  | z :: b :: t =>
      if z = '0' then
        (baseOf? b).bind fun base =>
          (digits? base t).map fun (ds, rest) => (ofDigits base ds, rest)
      else none
  | _ => none

/-- The whole part of a decimal number: a zero alone, or digits that start with
another one. -/
def wholePart? : Text → Option (List Nat × Text)
  | [] => none
  | c :: t => if c = '0' then some ([0], t) else digits? 10 (c :: t)

/-- A point and the digits behind it. -/
def fraction? (t : Text) : Option (List Nat × Text) := (behind? '.' t).bind (digits? 10)

/-- An exponent with its mark. -/
def exponent? : Text → Option (Int × Text)
  | [] => none
  | c :: t =>
      if c = 'e' || c = 'E' then
        let (negative, t) := takeSign t
        (digits? 10 t).map fun (ds, rest) => (signed negative (ofDigits 10 ds), rest)
      else none

/-- A decimal number: an integer unless it has a fraction or an exponent. An integer
with too many digits is a fault. -/
def decimal? (t : Text) : Option (Except Fault Setting × Text) :=
  let (negative, t) := takeSign t
  (wholePart? t).map fun (whole, t) =>
    let fraction := fraction? t
    let t := (fraction.map (·.2)).getD t
    let exponent := exponent? t
    let t := (exponent.map (·.2)).getD t
    if fraction.isNone && exponent.isNone then
      if Number.maxDigits < whole.length then (.error .digitLimit, t)
      else (.ok (.int (signed negative (ofDigits 10 whole))), t)
    else
      let places := (fraction.map (·.1)).getD []
      let power := (exponent.map (·.1)).getD 0 - places.length
      (.ok (.float (Binary64.ofDecimal negative (ofDigits 10 (whole ++ places)) power)), t)

/-- A number that is written with digits. -/
def number? (t : Text) : Option (Except Fault Setting × Text) :=
  match basedInteger? t with
  | some (n, rest) => some (.ok (.int n), rest)
  | none => decimal? t

/-- The floats that are written with letters. -/
def specialFloats : List (Text × Binary64) :=
  [("inf", .infinity false), ("nan", .nan), ("-inf", .infinity true), ("+inf", .infinity false),
   ("-nan", .nan), ("+nan", .nan)]

/-- A float that is written with letters. -/
def special? (t : Text) : Option (Setting × Text) :=
  (specialFloats.find? fun (word, _) => word.isPrefixOf t).map fun (word, x) =>
    (.float x, t.drop word.length)

/-- `count` digits as a number. -/
def fixedDigits? (count : Nat) (t : Text) : Option (Nat × Text) :=
  let ds := (t.take count).filterMap (digitBelow? 10)
  if ds.length = count then some (ofDigits 10 ds, t.drop count) else none

/-- Two digits that make a number between two others. -/
def pair? (lo hi : Nat) (t : Text) : Option (Nat × Text) :=
  (fixedDigits? 2 t).filter fun (n, _) => lo ≤ n && n ≤ hi

/-- A day, as it is written; the calendar may not have it. -/
def date? (t : Text) : Option (Date × Text) := do
  let (year, t) ← fixedDigits? 4 t
  let (month, t) ← pair? 1 12 (← behind? '-' t)
  let (day, t) ← pair? 1 31 (← behind? '-' t)
  return (⟨year, month, day⟩, t)

/-- A point and digits as microseconds; further digits are read and dropped. -/
def micros? (t : Text) : Option (Nat × Text) :=
  (behind? '.' t).bind fun t =>
    let run := t.takeWhile CodePoint.isAsciiDigit
    if run.isEmpty then none
    else
      let ds := (run.take 6).filterMap (digitBelow? 10)
      some (ofDigits 10 (ds ++ List.replicate (6 - ds.length) 0), t.drop run.length)

/-- A time of day. -/
def time? (t : Text) : Option (TimeOfDay × Text) := do
  let (hour, t) ← pair? 0 23 t
  let (minute, t) ← pair? 0 59 (← behind? ':' t)
  let (second, t) ← pair? 0 59 (← behind? ':' t)
  let (micro, t) := (micros? t).getD (0, t)
  return (⟨hour, minute, second, micro⟩, t)

/-- An offset from universal time in minutes. -/
def offset? : Text → Option (Int × Text)
  | [] => none
  | c :: t =>
      if c = 'Z' || c = 'z' then some (0, t)
      else if c = '+' || c = '-' then do
        let (hour, t) ← pair? 0 23 t
        let (minute, t) ← pair? 0 59 (← behind? ':' t)
        return (signed (c = '-') (60 * hour + minute), t)
      else none

/-- A time of day behind a day, with its offset. -/
def timeBehind? : Text → Option (TimeOfDay × Option Int × Text)
  | [] => none
  | c :: t =>
      if c = 'T' || c = 't' || c = ' ' then
        (time? t).map fun (time, t) =>
          match offset? t with
          | some (offset, t) => (time, some offset, t)
          | none => (time, none, t)
      else none

/-- A day with or without a time, or a time alone. A day that the calendar does not
have is refused. -/
def moment? (t : Text) : Option (Except Cause Setting × Text) :=
  match date? t with
  | some (date, rest) =>
      let (moment, rest) : Moment × Text := match timeBehind? rest with
        | some (time, offset, rest) => (.instant date time offset, rest)
        | none => (.day date, rest)
      some (if date.isValid then .ok (.moment moment) else .error .day, rest)
  | none => (time? t).map fun (time, rest) => (.ok (.moment (.time time)), rest)

end Toml

end EdnLint
