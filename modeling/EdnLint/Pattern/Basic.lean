import EdnLint.Fault
import EdnLint.Text.Case
import EdnLint.Text.Digit
import EdnLint.Text.Space
import EdnLint.Text.Word

/-!
# Patterns

The patterns a schema puts on strings, after reading: which code points a step
takes, where an assertion holds, and how the parts repeat, group and refer back.
The flags a pattern switches on are already resolved into its parts.
-/

namespace EdnLint

namespace Pattern

/-- Which letters count as equal. -/
inductive CaseRule where
  | exact
  | ascii
  | unicode
  deriving DecidableEq, Repr

/-- The numbers of the code points that a rule lets `n` stand for. -/
def CaseRule.variants (rule : CaseRule) (n : Nat) : List Nat :=
  match rule with
  | .exact => [n]
  | .ascii =>
      if 65 ≤ n && n ≤ 90 then [n, n + 32] else if 97 ≤ n && n ≤ 122 then [n, n - 32] else [n]
  | .unicode => CodePoint.caseVariants n

/-- The number that two code points share if a back reference takes them as equal. -/
def CaseRule.lower (rule : CaseRule) (n : Nat) : Nat :=
  match rule with
  | .exact => n
  | .ascii => if 65 ≤ n && n ≤ 90 then n + 32 else n
  | .unicode => CodePoint.lowerNat n

/-- A kind of code point with a letter of its own. -/
inductive Category where
  | digit
  | space
  | word
  deriving DecidableEq, Repr

/-- Whether a code point is of a kind, in the full or the ASCII alphabet. -/
def Category.holds (category : Category) (ascii : Bool) (c : CodePoint) : Bool :=
  (!ascii || c.val < 128) &&
    match category with
    | .digit => c.isDecimal
    | .space => c.isSpace && !(ascii && c.within 28 31)
    | .word => c.isWord

/-- A part of a set of code points. -/
inductive SetItem where
  | literal (n : Nat)
  | range (lo hi : Nat)
  | category (category : Category) (ascii negated : Bool)
  deriving DecidableEq, Repr

/-- A set of code points, or what is not in it. -/
structure CharSet where
  negated : Bool
  items : List SetItem
  rule : CaseRule
  deriving DecidableEq, Repr

/-- Whether a set holds a code point. -/
def CharSet.holds (s : CharSet) (c : CodePoint) : Bool :=
  let variants := s.rule.variants c.val
  let found := s.items.any fun item =>
    match item with
    | .literal n => variants.contains n
    | .range lo hi => variants.any fun n => lo ≤ n && n ≤ hi
    | .category category ascii negated => category.holds ascii c != negated
  found != s.negated

/-- A condition on a place in the text. -/
inductive Anchor where
  /-- The beginning, or of any line. -/
  | lineStart (everyLine : Bool)
  /-- The end or before a last line feed, or the end of any line. -/
  | lineEnd (everyLine : Bool)
  | textStart
  | textEnd
  /-- Between a word and no word, or not. -/
  | boundary (ascii negated : Bool)
  deriving DecidableEq, Repr

/-- What a repetition tries first, and whether it gives back. -/
inductive Greed where
  | most
  | least
  | possessive
  deriving DecidableEq, Repr

end Pattern

open Pattern in
/-- A pattern on texts. -/
inductive Pattern where
  /-- Any code point; `newline` admits the line feed. -/
  | any (newline : Bool)
  | one (set : CharSet)
  | anchor (condition : Anchor)
  | seq (parts : List Pattern)
  | alt (branches : List Pattern)
  | repeated (greed : Greed) (least : Nat) (most : Option Nat) (body : Pattern)
  | group (index : Nat) (body : Pattern)
  /-- What a group took, once more; `width` bounds its length. -/
  | backReference (index : Nat) (rule : CaseRule) (width : Nat × Nat)
  | lookAhead (negated : Bool) (body : Pattern)
  | lookBehind (negated : Bool) (body : Pattern)
  | conditional (index : Nat) (yes no : Pattern)
  | atomic (body : Pattern)
  deriving Repr

namespace Pattern

instance : Inhabited Pattern := ⟨.seq []⟩

/-- The width that stands for no bound. -/
def maxWidth : Nat := Nat.pow 2 64

/-- A width no larger than `maxWidth`. -/
def clip (w : Nat × Nat) : Nat × Nat := (min w.1 maxWidth, min w.2 maxWidth)

/-- How often an unbounded repetition counts. -/
def maxRepeat : Nat := 4294967295

mutual

/-- The least and the greatest length a pattern can take. -/
def width : Pattern → Nat × Nat
  | .any _ => (1, 1)
  | .one _ => (1, 1)
  | .anchor _ => (0, 0)
  | .seq parts => clip (widthAll parts)
  | .alt branches => clip (widthAny branches)
  | .repeated _ least most body =>
      let (lo, hi) := width body
      match most with
      | none => (lo * least, if hi = 0 then 0 else maxWidth)
      | some n => (lo * least, hi * n)
  | .group _ body => width body
  | .backReference _ _ w => w
  | .lookAhead _ _ => (0, 0)
  | .lookBehind _ _ => (0, 0)
  | .conditional _ yes no =>
      let (lo₁, hi₁) := width yes
      let (lo₂, hi₂) := width no
      (min lo₁ lo₂, max hi₁ hi₂)
  | .atomic body => width body

/-- The widths of parts in a row. -/
def widthAll : List Pattern → Nat × Nat
  | [] => (0, 0)
  | p :: ps =>
      let (lo₁, hi₁) := width p
      let (lo₂, hi₂) := widthAll ps
      (lo₁ + lo₂, hi₁ + hi₂)

/-- The widths of alternatives. -/
def widthAny : List Pattern → Nat × Nat
  | [] => (maxWidth, 0)
  | p :: ps =>
      let (lo₁, hi₁) := width p
      let (lo₂, hi₂) := widthAny ps
      (min lo₁ lo₂, max hi₁ hi₂)

end

end Pattern

end EdnLint
