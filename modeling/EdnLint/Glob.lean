import EdnLint.Text.Basic

/-!
# Glob patterns

A star stands for any text, a question mark for any code point, and square
brackets for one of the code points and ranges they list, or with an exclamation
mark in front for any other. An opening bracket that is never closed is itself.
A range whose ends are the wrong way round lists nothing.
-/

namespace EdnLint

/-- A step of a glob pattern. -/
inductive GlobStep where
  | star
  | any
  | literal (c : CodePoint)
  /-- One of the listed code points and inclusive ranges, or any but these. -/
  | oneOf (negated : Bool) (singles : List CodePoint) (ranges : List (CodePoint × CodePoint))
  deriving DecidableEq, Repr

namespace Glob

/-- What brackets hold and what follows them, behind the opening bracket. A
closing bracket right at the front, or right behind the exclamation mark, is one
of the contents. -/
def brackets? (t : Text) : Option (Text × Text) :=
  let (negation, t) := match t with
    | c :: u => if c = '!' then ([c], u) else ([], t)
    | [] => ([], t)
  let (closer, t) := match t with
    | c :: u => if c = ']' then ([c], u) else ([], t)
    | [] => ([], t)
  (Text.splitFirst? ']' t).map fun (contents, rest) => (negation ++ closer ++ contents, rest)

/-- The contents cut at the hyphens that make ranges. A hyphen makes one if at
least `room` code points stand before it since the last cut; `chunk` holds them,
last first. -/
def chunksFrom (room : Nat) (chunk : Text) : Text → List Text
  | [] => [chunk.reverse]
  | c :: t =>
      match room with
      | 0 => if c = '-' then chunk.reverse :: chunksFrom 2 [] t else chunksFrom 0 (c :: chunk) t
      | room + 1 => chunksFrom room (c :: chunk) t

/-- The contents cut at their hyphens; a hyphen at the end is no cut. -/
def chunks (contents : Text) : List Text :=
  let room := if contents.head? = some (CodePoint.ofChar '!') then 2 else 1
  match (chunksFrom room [] contents).reverse with
  | [] :: last :: before => ((last ++ [CodePoint.ofChar '-']) :: before).reverse
  | cut => cut.reverse

/-- Joins the chunks on both sides of a range whose ends are the wrong way round,
without these ends. -/
def dropEmptyRanges : List Text → List Text
  | [] => []
  | chunk :: rest =>
      match dropEmptyRanges rest with
      | [] => [chunk]
      | next :: later =>
          match chunk.getLast?, next.head? with
          | some lo, some hi =>
              if hi.val < lo.val then (chunk.dropLast ++ next.tail) :: later
              else chunk :: next :: later
          | _, _ => chunk :: next :: later

/-- The single code points and the ranges that chunks list: the last of one chunk
and the first of the next are the ends of a range. `first` is the end that a range
before has taken already. -/
def members (first : Option CodePoint) : List Text → List CodePoint × List (CodePoint × CodePoint)
  | [] => ([], [])
  | [chunk] => (if first.isSome then chunk.tail else chunk, [])
  | chunk :: next :: rest =>
      let own := if first.isSome then chunk.tail else chunk
      let (singles, ranges) := members next.head? (next :: rest)
      match chunk.getLast?, next.head? with
      | some lo, some hi => (own.dropLast ++ singles, (lo, hi) :: ranges)
      | _, _ => (own ++ singles, ranges)

/-- The step that the contents of brackets write. -/
def bracketStep (contents : Text) : GlobStep :=
  let cut := dropEmptyRanges (chunks contents)
  match cut with
  | (c :: chunk) :: rest =>
      if c = '!' then
        -- a hyphen right behind the exclamation mark is one of the contents
        let cut := match chunk, rest with
          | [], next :: later => (CodePoint.ofChar '-' :: next) :: later
          | chunk, rest => chunk :: rest
        let (singles, ranges) := members none cut
        .oneOf true singles ranges
      else
        let (singles, ranges) := members none cut
        .oneOf false singles ranges
  | _ => .oneOf false [] []

/-- The steps of a pattern, after `skip` code points that belong to brackets. -/
def stepsFrom (skip : Nat) : Text → List GlobStep
  | [] => []
  | c :: t =>
      match skip with
      | skip + 1 => stepsFrom skip t
      | 0 =>
          if c = '*' then .star :: stepsFrom 0 t
          else if c = '?' then .any :: stepsFrom 0 t
          else if c = '[' then
            match brackets? t with
            | some (contents, _) => bracketStep contents :: stepsFrom (contents.length + 1) t
            | none => .literal c :: stepsFrom 0 t
          else .literal c :: stepsFrom 0 t

/-- The steps of a pattern. -/
def steps (pattern : Text) : List GlobStep := stepsFrom 0 pattern

/-- Whether a step that takes one code point takes this one. -/
def takes (c : CodePoint) : GlobStep → Bool
  | .star => false
  | .any => true
  | .literal d => c == d
  | .oneOf negated singles ranges =>
      (singles.contains c || ranges.any fun (lo, hi) => c.within lo.val hi.val) != negated

/-- The ends of a text, the text itself first. -/
def ends : Text → List Text
  | [] => [[]]
  | c :: t => (c :: t) :: ends t

/-- Whether steps take the whole of a text. -/
def takeAll : List GlobStep → Text → Bool
  | [], t => t.isEmpty
  | .star :: steps, t => (ends t).any fun t => takeAll steps t
  | step :: steps, t =>
      match t with
      | [] => false
      | c :: t => takes c step && takeAll steps t

/-- Whether a pattern matches the whole of a text. -/
def isMatch (pattern t : Text) : Bool := takeAll (steps pattern) t

end Glob

end EdnLint
