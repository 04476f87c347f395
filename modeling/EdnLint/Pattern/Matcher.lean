import EdnLint.Pattern.Basic

/-!
# Matching patterns

Matching goes through a pattern in continuation-passing style: `run` hands each
way to match a part to what comes after it and takes the first that leads to the
end, which is backtracking. A repetition beyond its least count stops when an
iteration has taken nothing, so the text bounds the number of iterations.
-/

namespace EdnLint

namespace Pattern

/-- How far a match has come: the place in the text, and for each group that has
begun or ended the place where it last did, even numbers being the beginnings. -/
structure Progress where
  position : Nat
  marks : List (Nat × Nat)
  deriving DecidableEq, Repr

namespace Progress

/-- The place of a mark, if it has been set. -/
def mark? (p : Progress) (i : Nat) : Option Nat :=
  (p.marks.find? fun (j, _) => j == i).map (·.2)

/-- Sets a mark to the current place. -/
def setMark (p : Progress) (i : Nat) : Progress := { p with marks := (i, p.position) :: p.marks }

/-- The begin and end of what a group took. -/
def group? (p : Progress) (index : Nat) : Option (Nat × Nat) :=
  match p.mark? (2 * index), p.mark? (2 * index + 1) with
  | some start, some stop => if start ≤ stop then some (start, stop) else none
  | _, _ => none

/-- The same marks at another place. -/
def moveTo (p : Progress) (position : Nat) : Progress := { p with position := position }

end Progress

/-- What follows a part of a match. -/
abbrev Continuation := Progress → Option Progress

/-- Whether the code point at a place can be part of a word. -/
def wordAt (text : Array CodePoint) (ascii : Bool) (i : Nat) : Bool :=
  (text[i]?.map (Category.word.holds ascii)).getD false

/-- Whether an anchor holds at a place. -/
def Anchor.holds (text : Array CodePoint) (i : Nat) : Anchor → Bool
  | .textStart => i == 0
  | .textEnd => i == text.size
  | .lineStart everyLine =>
      i == 0 || (everyLine && text[i - 1]? == some (CodePoint.ofChar '\n'))
  | .lineEnd everyLine =>
      i == text.size ||
        (text[i]? == some (CodePoint.ofChar '\n') && (everyLine || i + 1 == text.size))
  | .boundary ascii negated =>
      let before := 0 < i && wordAt text ascii (i - 1)
      let after := wordAt text ascii i
      0 < text.size && (before != after) != negated

/-- Whether the `n` code points at `i` repeat those at `j`. -/
def repeats (text : Array CodePoint) (rule : CaseRule) (i j : Nat) : Nat → Bool
  | 0 => true
  | n + 1 =>
      match text[i]?, text[j]? with
      | some a, some b => rule.lower a.val == rule.lower b.val && repeats text rule (i + 1) (j + 1) n
      | _, _ => false

/-- A repetition that takes as much as it can. `last` is where the iteration
before began, once the least count was reached. -/
def most (body : Progress → Continuation → Option Progress) (least : Nat) (bound : Option Nat)
    (k : Continuation) : (fuel count : Nat) → (last : Option Nat) → Progress → Option Progress
  | 0, _, _, _ => none
  | fuel + 1, count, last, p =>
      if count < least then body p (most body least bound k fuel (count + 1) last)
      else if bound.all (count < ·) && last != some p.position then
        match body p (most body least bound k fuel (count + 1) (some p.position)) with
        | some q => some q
        | none => k p
      else k p

/-- A repetition that takes as little as it can. -/
def least (body : Progress → Continuation → Option Progress) (least' : Nat) (bound : Option Nat)
    (k : Continuation) : (fuel count : Nat) → (last : Option Nat) → Progress → Option Progress
  | 0, _, _, _ => none
  | fuel + 1, count, last, p =>
      if count < least' then body p (least body least' bound k fuel (count + 1) last)
      else
        match k p with
        | some q => some q
        | none =>
            if bound.all (count < ·) && last != some p.position then
              body p (least body least' bound k fuel (count + 1) (some p.position))
            else none

/-- A repetition that takes as much as it can and gives nothing back. -/
def possessive (body : Progress → Continuation → Option Progress) (least : Nat)
    (bound : Option Nat) : (fuel count : Nat) → Progress → Option Progress
  | 0, _, _ => none
  | fuel + 1, count, p =>
      if count < least then
        match body p some with
        | some q => possessive body least bound fuel (count + 1) q
        | none => none
      else if bound.all (count < ·) then
        match body p some with
        | some q =>
            if q.position = p.position then some q
            else possessive body least bound fuel (count + 1) q
        | none => some p
      else some p

mutual

/-- Matches a pattern from `p` on and then what follows. -/
def run (text : Array CodePoint) : Pattern → Progress → Continuation → Option Progress
  | .any newline, p, k =>
      match text[p.position]? with
      | some c =>
          if newline || c != CodePoint.ofChar '\n' then k (p.moveTo (p.position + 1)) else none
      | none => none
  | .one set, p, k =>
      match text[p.position]? with
      | some c => if set.holds c then k (p.moveTo (p.position + 1)) else none
      | none => none
  | .anchor condition, p, k => if condition.holds text p.position then k p else none
  | .seq parts, p, k => runAll text parts p k
  | .alt branches, p, k => runAny text branches p k
  | .repeated .most lo hi body, p, k =>
      most (fun p k => run text body p k) lo hi k (lo + text.size + 3) 0 none p
  | .repeated .least lo hi body, p, k =>
      least (fun p k => run text body p k) lo hi k (lo + text.size + 3) 0 none p
  | .repeated .possessive lo hi body, p, k =>
      (possessive (fun p k => run text body p k) lo hi (lo + text.size + 3) 0 p).bind k
  | .group index body, p, k =>
      run text body (p.setMark (2 * index)) fun q => k (q.setMark (2 * index + 1))
  | .backReference index rule _, p, k =>
      match p.group? index with
      | some (start, stop) =>
          if repeats text rule start p.position (stop - start) then
            k (p.moveTo (p.position + (stop - start)))
          else none
      | none => none
  | .lookAhead negated body, p, k =>
      match run text body p some with
      | some q => if negated then none else k (q.moveTo p.position)
      | none => if negated then k p else none
  | .lookBehind negated body, p, k =>
      let back := (width body).1
      if p.position < back then (if negated then k p else none)
      else
        match run text body (p.moveTo (p.position - back)) some with
        | some q => if negated then none else k (q.moveTo p.position)
        | none => if negated then k p else none
  | .conditional index yes no, p, k =>
      match p.group? index with
      | some _ => run text yes p k
      | none => run text no p k
  | .atomic body, p, k =>
      match run text body p some with
      | some q => k q
      | none => none

/-- Matches parts in a row. -/
def runAll (text : Array CodePoint) : List Pattern → Progress → Continuation → Option Progress
  | [], p, k => k p
  | part :: parts, p, k => run text part p fun q => runAll text parts q k

/-- Matches the first of the branches that leads on. -/
def runAny (text : Array CodePoint) : List Pattern → Progress → Continuation → Option Progress
  | [], _, _ => none
  | branch :: branches, p, k =>
      match run text branch p k with
      | some q => some q
      | none => runAny text branches p k

end

/-- Whether the pattern matches at `i` or at one of the `n` places behind it. -/
def foundFrom (pattern : Pattern) (text : Array CodePoint) (i : Nat) : Nat → Bool
  | 0 => (run text pattern ⟨i, []⟩ some).isSome
  | n + 1 => (run text pattern ⟨i, []⟩ some).isSome || foundFrom pattern text (i + 1) n

/-- Whether the pattern matches anywhere in a text. -/
def found (pattern : Pattern) (text : Text) : Bool :=
  foundFrom pattern text.toArray 0 text.length

end Pattern

end EdnLint
