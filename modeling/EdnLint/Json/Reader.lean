import EdnLint.Json.Basic
import EdnLint.Text.Basic

/-!
# Reading JSON

A recursive descent over the code points. Every nested value takes at least one
code point, so the length of the text bounds the depth, and `parse?` starts the
descent with that bound. Two escapes that make a surrogate pair are joined, and
of members with one name the last counts, at the place of the first.
-/

namespace EdnLint

namespace Json

/-- White space between tokens. -/
def isBlank (c : CodePoint) : Bool := c = ' ' || c = '\n' || c = '\r' || c = '\t'

/-- The text without white space in front. -/
def skip (t : Text) : Text := t.dropWhile isBlank

/-- The number that four hexadecimal digits write, and the text behind them. -/
def hexUnit? : Text → Option (Nat × Text)
  | a :: b :: c :: d :: t => do
      let a ← a.hexValue?
      let b ← b.hexValue?
      let c ← c.hexValue?
      let d ← d.hexValue?
      return (((a * 16 + b) * 16 + c) * 16 + d, t)
  | _ => none

/-- What a one-letter escape stands for. -/
def escape? (c : CodePoint) : Option CodePoint :=
  if c = '"' then some '"'
  else if c = '\\' then some '\\'
  else if c = '/' then some '/'
  else if c = 'b' then some (CodePoint.ofChar '\x08')
  else if c = 'f' then some (CodePoint.ofChar '\x0c')
  else if c = 'n' then some '\n'
  else if c = 'r' then some '\r'
  else if c = 't' then some '\t'
  else none

/-- The second half of a surrogate pair in front of a text. -/
def lowHalf? : Text → Option (Nat × Text)
  | b :: u :: t =>
      if b = '\\' && u = 'u' then
        (hexUnit? t).bind fun (n, t) =>
          if 0xDC00 ≤ n && n ≤ 0xDFFF then some (n, t) else none
      else none
  | _ => none

/-- The code point of a numbered escape, joined with its second half if it is the
first of a pair. -/
def unicode? (t : Text) : Option (CodePoint × Text) := do
  let (n, t) ← hexUnit? t
  let joined :=
    if 0xD800 ≤ n && n ≤ 0xDBFF then
      (lowHalf? t).map fun (low, t) => (0x10000 + (n - 0xD800) * 0x400 + (low - 0xDC00), t)
    else none
  let (n, t) := joined.getD (n, t)
  let c ← CodePoint.ofNat? n
  return (c, t)

/-- The rest of a string up to its closing quote; `read` is what came before, last
first. -/
def stringBody? : (fuel : Nat) → (read : Text) → Text → Option (Text × Text)
  | 0, _, _ => none
  | _ + 1, _, [] => none
  | fuel + 1, read, c :: t =>
      if c = '"' then some (read.reverse, t)
      else if c = '\\' then
        match t with
        | [] => none
        | e :: t =>
            if e = 'u' then
              (unicode? t).bind fun (d, t) => stringBody? fuel (d :: read) t
            else
              (escape? e).bind fun d => stringBody? fuel (d :: read) t
      else stringBody? fuel (c :: read) t

/-- The ASCII digits in front of a text. -/
def digits (t : Text) : List Nat × Text :=
  ((t.takeWhile CodePoint.isAsciiDigit).map fun c => c.val - 48,
    t.dropWhile CodePoint.isAsciiDigit)

/-- A number: an integer unless it has a fraction or an exponent. -/
def number? (t : Text) : Option (Json × Text) :=
  let (negative, t) :=
    match t with
    | c :: u => if c = '-' then (true, u) else (false, t)
    | [] => (false, t)
  let value (ds : List Nat) : Nat := ds.foldl (fun n d => 10 * n + d) 0
  match digits t with
  | ([], _) => none
  | (whole, t) =>
      let (fraction, t) :=
        match t with
        | c :: u =>
            if c = '.' then
              match digits u with
              | ([], _) => (none, t)
              | (ds, rest) => (some ds, rest)
            else (none, t)
        | [] => (none, t)
      let (exponent, t) : Option Int × Text :=
        match t with
        | c :: u =>
            if c = 'e' || c = 'E' then
              let (below, u) :=
                match u with
                | s :: v => if s = '-' then (true, v) else if s = '+' then (false, v) else (false, u)
                | [] => (false, u)
              match digits u with
              | ([], _) => (none, t)
              | (ds, rest) => (some (if below then -(value ds : Int) else value ds), rest)
            else (none, t)
        | [] => (none, t)
      match fraction, exponent with
      | none, none => some (.int (if negative then -(value whole : Int) else value whole), t)
      | _, _ =>
          let behind := fraction.getD []
          some (.float (Binary64.ofDecimal negative (value (whole ++ behind))
            (exponent.getD 0 - behind.length)), t)

/-- The text behind a given word. -/
def expect? (word t : Text) : Option Text :=
  if word.isPrefixOf t then some (t.drop word.length) else none

mutual

/-- A value in front of a text. -/
def value? : (fuel : Nat) → Text → Option (Json × Text)
  | 0, _ => none
  | fuel + 1, t =>
      match skip t with
      | [] => none
      | c :: u =>
          if c = '"' then (stringBody? (u.length + 1) [] u).map fun (s, t) => (.string s, t)
          else if c = '[' then
            match skip u with
            | d :: v =>
                if d = ']' then some (.array [], v)
                else (items? fuel (d :: v)).map fun (vs, t) => (.array vs, t)
            | [] => none
          else if c = '{' then
            match skip u with
            | d :: v =>
                if d = '}' then some (.object [], v)
                else (members? fuel [] (d :: v)).map fun (ms, t) => (.object ms, t)
            | [] => none
          else if c = 't' then (expect? "true" (c :: u)).map fun t => (.bool true, t)
          else if c = 'f' then (expect? "false" (c :: u)).map fun t => (.bool false, t)
          else if c = 'n' then (expect? "null" (c :: u)).map fun t => (.null, t)
          else number? (c :: u)

/-- The items of an array up to its closing bracket. -/
def items? : (fuel : Nat) → Text → Option (List Json × Text)
  | 0, _ => none
  | fuel + 1, t => do
      let (v, t) ← value? fuel t
      match skip t with
      | c :: t =>
          if c = ']' then return ([v], t)
          else if c = ',' then
            let (vs, t) ← items? fuel t
            return (v :: vs, t)
          else none
      | [] => none

/-- The members of an object up to its closing brace; `read` came before. -/
def members? : (fuel : Nat) → (read : List (Text × Json)) → Text →
    Option (List (Text × Json) × Text)
  | 0, _, _ => none
  | fuel + 1, read, t =>
      match skip t with
      | q :: t =>
          if q = '"' then do
            let (name, t) ← stringBody? (t.length + 1) [] t
            match skip t with
            | colon :: t =>
                if colon = ':' then do
                  let (v, t) ← value? fuel t
                  let read := Members.put name v read
                  match skip t with
                  | c :: t =>
                      if c = '}' then return (read, t)
                      else if c = ',' then members? fuel read t
                      else none
                  | [] => none
                else none
            | [] => none
          else none
      | [] => none

end

/-- The value a text writes, with nothing but white space around it. -/
def parse? (t : Text) : Option Json :=
  (value? (2 * t.length + 2) t).bind fun (v, rest) =>
    if (skip rest).isEmpty then some v else none

end Json

end EdnLint
