import EdnLint.Datum.Basic
import EdnLint.Text.Quoted

/-!
# Data in messages

A message shows a bare atom plainly: a keyword with its colon, a string without
quotes. Inside a container every atom is spelled out, so that a keyword, a symbol
and a string of one name stay apart. Showing fails on an integer with too many
digits.
-/

namespace EdnLint

namespace Atom

/-- The atom as it stands by itself in a message. -/
def plain : Atom → Except Fault Text
  | .nil => .ok "None"
  | .bool b => .ok (if b then "True" else "False")
  | .number n => n.text
  | .string t => .ok t
  | .keyword name => .ok (CodePoint.ofChar ':' :: name)
  | .symbol name => .ok name

/-- The atom as it stands inside a container. -/
def detailed : Atom → Except Fault Text
  | .number (.ratio r) => do
      let num ← Number.intText r.num
      let den ← Number.intText r.den
      return ("Fraction(" : Text) ++ num ++ ", " ++ den ++ ")"
  | .number (.decimal d) => .ok (("Decimal('" : Text) ++ d.text ++ "')")
  | .string t => .ok t.quoted
  | .keyword name => .ok (("Keyword(text=" : Text) ++ name.quoted ++ ")")
  | .symbol name => .ok (("Symbol(text=" : Text) ++ name.quoted ++ ")")
  | a => a.plain

end Atom

namespace Key

mutual

/-- The key as it stands inside a container. -/
def detailed : Key → Except Fault Text
  | .atom a => a.detailed
  | .tuple items => do return Text.tupled (← detailedAll items)
  | .bag items => do
      let shown ← detailedAll items
      if shown.isEmpty then return "frozenset()"
      return ("frozenset(\x7b" : Text) ++ Text.join ", " shown ++ "\x7d)"

/-- The keys of a list as they stand inside a container. -/
def detailedAll : List Key → Except Fault (List Text)
  | [] => .ok []
  | k :: ks => do
      let shown ← detailed k
      return shown :: (← detailedAll ks)

end

/-- The key as it stands by itself in a message. -/
def plain : Key → Except Fault Text
  | .atom a => a.plain
  | k => k.detailed

end Key

namespace Datum

mutual

/-- The datum as it stands inside a container. -/
def detailed : Datum → Except Fault Text
  | .atom a => a.detailed
  | .vector items => do return ("[" : Text) ++ Text.join ", " (← detailedAll items) ++ "]"
  | .set items => do
      let shown ← Key.detailedAll items
      if shown.isEmpty then return "set()"
      return ("\x7b" : Text) ++ Text.join ", " shown ++ "\x7d"
  | .map entries => do
      return ("\x7b" : Text) ++ Text.join ", " (← detailedEntries entries) ++ "\x7d"

/-- The data of a list as they stand inside a container. -/
def detailedAll : List Datum → Except Fault (List Text)
  | [] => .ok []
  | d :: ds => do
      let shown ← detailed d
      return shown :: (← detailedAll ds)

/-- The entries of a map as they stand inside it. -/
def detailedEntries : List (Key × Datum) → Except Fault (List Text)
  | [] => .ok []
  | (k, d) :: entries => do
      let key ← k.detailed
      let shown ← detailed d
      return (key ++ ": " ++ shown) :: (← detailedEntries entries)

end

/-- The datum as it stands by itself in a message. -/
def plain : Datum → Except Fault Text
  | .atom a => a.plain
  | d => d.detailed

end Datum

end EdnLint
