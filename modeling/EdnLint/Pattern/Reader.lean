import EdnLint.Number.Numeral
import EdnLint.Pattern.Basic
import EdnLint.Text.Identifier
import EdnLint.Text.Quoted

/-!
# Reading patterns

A pattern is read token by token, a token being a code point or a backslash with
the code point behind it. The reader looks one token ahead, so a lone backslash
at the end is found as soon as the token before it is taken. Errors name a place
in the pattern, counted from zero, except for those found in the finished
pattern.

Flags at the start of a pattern hold for all of it, flags of a group inside it.
Groups are numbered as they open; a reference back needs a group that is closed.
-/

namespace EdnLint

namespace Pattern

/-- Why a pattern cannot be read. -/
structure Error where
  message : Text
  position : Option Nat
  deriving DecidableEq, Repr

/-- Why reading a pattern stopped. -/
inductive Failure where
  | error (error : Error)
  | fault (fault : Fault)
  deriving DecidableEq, Repr

/-- The wording of an error in `pattern`: its place, and the line and column too
if there are several lines. -/
def Error.text (pattern : Text) (e : Error) : Text :=
  match e.position with
  | none => e.message
  | some n =>
      let placed := e.message ++ " at position " ++ Text.ofNat n
      if pattern.contains (CodePoint.ofChar '\n') then
        let before := Text.splitOn '\n' (pattern.take n)
        placed ++ " (line " ++ Text.ofNat before.length ++ ", column "
          ++ Text.ofNat ((before.getLast?.getD []).length + 1) ++ ")"
      else placed

/-- A flag a pattern can switch on. -/
inductive Flag where
  | ignoreCase
  | locale
  | multiline
  | dotAll
  | verbose
  | ascii
  | template
  | unicode
  deriving DecidableEq, Repr

namespace Flag

/-- The flag of a letter. -/
def ofToken? (t : Text) : Option Flag :=
  if t = ("i" : Text) then some .ignoreCase
  else if t = ("L" : Text) then some .locale
  else if t = ("m" : Text) then some .multiline
  else if t = ("s" : Text) then some .dotAll
  else if t = ("x" : Text) then some .verbose
  else if t = ("a" : Text) then some .ascii
  else if t = ("t" : Text) then some .template
  else if t = ("u" : Text) then some .unicode
  else none

/-- The flags that choose an alphabet. -/
def isAlphabet (f : Flag) : Bool := f == .locale || f == .ascii || f == .unicode

end Flag

/-- The flags that hold at a place of a pattern. -/
structure Scope where
  ignoreCase : Bool
  multiline : Bool
  dotAll : Bool
  verbose : Bool
  ascii : Bool
  deriving DecidableEq, Repr

namespace Scope

/-- The scope with flags switched on and off. -/
def switch (s : Scope) (on off : List Flag) : Scope :=
  let set (f : Flag) (old : Bool) : Bool := (old || on.contains f) && !off.contains f
  { ignoreCase := set .ignoreCase s.ignoreCase
    multiline := set .multiline s.multiline
    dotAll := set .dotAll s.dotAll
    verbose := set .verbose s.verbose
    ascii := if on.contains .unicode then false else s.ascii || on.contains .ascii }

/-- The scope of flags that hold for the whole pattern. -/
def ofFlags (flags : List Flag) : Scope := (⟨false, false, false, false, false⟩ : Scope).switch flags []

/-- How letters compare in a scope. -/
def rule (s : Scope) : CaseRule :=
  if s.ignoreCase then (if s.ascii then .ascii else .unicode) else .exact

end Scope

/-- The tokens still to be read. -/
structure Source where
  tokens : List Text
  position : Nat
  /-- Whether a lone backslash ends the pattern. -/
  dangling : Bool
  deriving Repr

/-- The tokens of a pattern, and whether a lone backslash is left over. -/
def tokenize : Text → List Text × Bool
  | [] => ([], false)
  | [c] => if c = '\\' then ([], true) else ([[c]], false)
  | c :: d :: t =>
      if c = '\\' then
        let (tokens, dangling) := tokenize t
        ([c, d] :: tokens, dangling)
      else
        let (tokens, dangling) := tokenize (d :: t)
        ([c] :: tokens, dangling)

/-- What the reader knows between two tokens. `characters` gives the code points that
have a name. `widths` has an entry for each group number, filled in when the group
closes; `tests` are the groups that conditions named, with the place of the name. -/
structure Reading where
  characters : Text → Option Nat
  source : Source
  flags : List Flag
  widths : List (Option (Nat × Nat))
  names : List (Text × Nat)
  behindFrom : Option Nat
  tests : List (Nat × Nat)

/-- A step of reading a pattern. -/
abbrev Read := StateT Reading (Except Failure)

namespace Read

/-- Stops at a place of the pattern. -/
def failAt {α : Type} (message : Text) (position : Nat) : Read α :=
  throw (.error ⟨message, some position⟩)

/-- Stops `back` code points before the next token. -/
def fail {α : Type} (message : Text) (back : Nat) : Read α := do
  failAt message ((← get).source.position - back)

/-- The place of the next token. -/
def tell : Read Nat := return (← get).source.position

/-- The next token, which stays. -/
def peek : Read (Option Text) := return (← get).source.tokens.head?

/-- Whether the next token is the code point `c`. -/
def nextIs (c : CodePoint) : Read Bool := return (← peek) == some [c]

/-- A lone backslash cannot come next. -/
def guardDangling (s : Source) : Read Unit :=
  if s.tokens.isEmpty && s.dangling then failAt "bad escape (end of pattern)" s.position
  else return

/-- Takes the next token. -/
def token : Read (Option Text) := do
  let s := (← get).source
  match s.tokens with
  | [] => return none
  | t :: tokens =>
      let rest : Source := { s with tokens := tokens, position := s.position + t.length }
      modify fun r => { r with source := rest }
      guardDangling rest
      return some t

/-- Takes the next token if it is the code point `c`. -/
def accept (c : CodePoint) : Read Bool := do
  if ← nextIs c then
    let _ ← token
    return true
  return false

/-- Takes up to `n` tokens that are single code points of a kind. -/
def takeWhile (p : CodePoint → Bool) : Nat → Read Text
  | 0 => return []
  | n + 1 => do
      match ← peek with
      | some [c] =>
          if p c then
            let _ ← token
            return c :: (← takeWhile p n)
          else return []
      | _ => return []

/-- Takes tokens up to a terminator, which is taken too; `read` came before. -/
def takeUntil (terminator : CodePoint) (what : Text) : (fuel : Nat) → (read : Text) → Read Text
  | 0, read => return read
  | fuel + 1, read => do
      match ← token with
      | none =>
          if read.isEmpty then fail (("missing " : Text) ++ what) 0
          else fail (("missing " : Text) ++ [terminator] ++ ", unterminated name") read.length
      | some t =>
          if t = [terminator] then
            if read.isEmpty then fail (("missing " : Text) ++ what) 1 else return read
          else takeUntil terminator what fuel (read ++ t)

/-- Takes a name up to a terminator. -/
def name (terminator : CodePoint) (what : Text) : Read Text := do
  takeUntil terminator what ((← get).source.tokens.length + 1) []

end Read

/-- The octal digits. -/
def isOctal (c : CodePoint) : Bool := c.within 48 55

/-- The hexadecimal digits. -/
def isHex (c : CodePoint) : Bool := c.hexValue?.isSome

/-- The number that digits write in a base up to sixteen. -/
def numeral (base : Nat) (digits : Text) : Nat :=
  Numeral.ofDigits base (digits.filterMap CodePoint.hexValue?)

/-- The kinds of code points that have a letter. -/
def category? (letter : CodePoint) (ascii : Bool) : Option SetItem :=
  if letter = 'd' then some (.category .digit ascii false)
  else if letter = 'D' then some (.category .digit ascii true)
  else if letter = 's' then some (.category .space ascii false)
  else if letter = 'S' then some (.category .space ascii true)
  else if letter = 'w' then some (.category .word ascii false)
  else if letter = 'W' then some (.category .word ascii true)
  else none

/-- The anchors that have a letter. -/
def anchor? (letter : CodePoint) (ascii : Bool) : Option Anchor :=
  if letter = 'A' then some .textStart
  else if letter = 'Z' then some .textEnd
  else if letter = 'b' then some (.boundary ascii false)
  else if letter = 'B' then some (.boundary ascii true)
  else none

/-- The control characters that have a letter. -/
def control? (letter : CodePoint) : Option Nat :=
  if letter = 'a' then some 7
  else if letter = 'b' then some 8
  else if letter = 'f' then some 12
  else if letter = 'n' then some 10
  else if letter = 'r' then some 13
  else if letter = 't' then some 9
  else if letter = 'v' then some 11
  else if letter = '\\' then some 92
  else none

/-- A refused escape. -/
def badEscape {α : Type} (escape : Text) : Read α :=
  Read.fail (("bad escape " : Text) ++ escape) escape.length

/-- An escape of exactly `count` hexadecimal digits. -/
def hexEscape (escape : Text) (count : Nat) : Read Nat := do
  let digits ← Read.takeWhile isHex count
  let escape := escape ++ digits
  if digits.length ≠ count then
    Read.fail (("incomplete escape " : Text) ++ escape) escape.length
  let n := numeral 16 digits
  if 0x10FFFF < n then badEscape escape
  return n

/-- The code point of a name in braces. A name that holds a surrogate is not even looked
for. -/
def namedEscape (escape : Text) : Read Nat := do
  if !(← Read.accept '{') then Read.fail "missing \x7b" 0
  let name ← Read.name '}' "character name"
  if name.any CodePoint.isSurrogate then badEscape escape
  match (← get).characters name with
  | some n => return n
  | none => Read.fail (("undefined character name " : Text) ++ name.quoted) (name.length + 4)

/-- The escapes by number or name that are read alike in and outside of sets. -/
def numberedEscape? (escape : Text) (letter : CodePoint) : Read (Option Nat) := do
  if letter = 'x' then return some (← hexEscape escape 2)
  else if letter = 'u' then return some (← hexEscape escape 4)
  else if letter = 'U' then return some (← hexEscape escape 8)
  else if letter = 'N' then return some (← namedEscape escape)
  else return none

/-- An octal number behind a backslash, at most `0o377`. -/
def octalValue (escape : Text) : Read Nat := do
  let n := numeral 8 escape.tail
  if 0o377 < n then
    Read.fail (("octal escape value " : Text) ++ escape ++ " outside of range 0-0o377") escape.length
  return n

/-- An escape in a set. -/
def setEscape (scope : Scope) (escape : Text) (letter : CodePoint) : Read SetItem := do
  match control? letter, category? letter scope.ascii with
  | some n, _ => return .literal n
  | none, some item => return item
  | none, none =>
      match ← numberedEscape? escape letter with
      | some n => return .literal n
      | none =>
          if isOctal letter then
            let digits ← Read.takeWhile isOctal 2
            return .literal (← octalValue (escape ++ digits))
          else if letter.isAsciiDigit || letter.isAsciiLetter then badEscape escape
          else return .literal letter.val

/-- Whether a group has been closed. -/
def isClosed (r : Reading) (group : Nat) : Bool := (r.widths[group]?.join).isSome

/-- Inside a look behind only groups from before it can be referred to. -/
def guardBehind (group : Nat) : Read Unit := do
  let r ← get
  match r.behindFrom with
  | none => return
  | some start =>
      if !isClosed r group then Read.fail "cannot refer to an open group" 0
      if start ≤ group then
        Read.fail "cannot refer to group defined in the same lookbehind subpattern" 0

/-- A reference back to a closed group. -/
def backReferenceTo (scope : Scope) (group : Nat) : Read Pattern := do
  guardBehind group
  let width := (((← get).widths[group]?).join).getD (0, 0)
  return .backReference group scope.rule width

/-- One code point by its number. -/
def literal (scope : Scope) (n : Nat) : Pattern := .one ⟨false, [.literal n], scope.rule⟩

/-- A number behind a backslash: an octal code point if it has three octal digits,
and otherwise a group. -/
def numberedGroup (scope : Scope) (escape : Text) : Read Pattern := do
  let second ← Read.takeWhile CodePoint.isAsciiDigit 1
  let escape := escape ++ second
  let octal := !second.isEmpty && escape.tail.all isOctal
  let third ← if octal then Read.takeWhile isOctal 1 else pure []
  if !third.isEmpty then return literal scope (← octalValue (escape ++ third))
  let group := numeral 10 escape.tail
  let r ← get
  if r.widths.length ≤ group then
    Read.fail (("invalid group reference " : Text) ++ Text.ofNat group) (escape.length - 1)
  if !isClosed r group then Read.fail "cannot refer to an open group" escape.length
  backReferenceTo scope group

/-- An escape outside of sets. -/
def escape (scope : Scope) (token : Text) (letter : CodePoint) : Read Pattern := do
  match anchor? letter scope.ascii, category? letter scope.ascii, control? letter with
  | some a, _, _ => return .anchor a
  | _, some item, _ => return .one ⟨false, [item], .exact⟩
  | _, _, some n => return literal scope n
  | none, none, none =>
      match ← numberedEscape? token letter with
      | some n => return literal scope n
      | none =>
          if letter = '0' then
            let digits ← Read.takeWhile isOctal 2
            return literal scope (numeral 8 (letter :: digits))
          else if letter.isAsciiDigit then numberedGroup scope token
          else if letter.isAsciiLetter then badEscape token
          else return literal scope letter.val

/-- A token of a set as an item. -/
def setItem (scope : Scope) : Text → Read SetItem
  | [b, letter] => setEscape scope [b, letter] letter
  | [c] => return .literal c.val
  | _ => return .literal 0

/-- The items of a set up to its closing bracket. `start` is the place of the
opening one, and `items` came before. -/
def setItems (scope : Scope) (start : Nat) : (fuel : Nat) → (items : List SetItem) →
    Read (List SetItem)
  | 0, items => return items
  | fuel + 1, items => do
      let unterminated {α : Type} : Read α := Read.failAt "unterminated character set" start
      let some this ← Read.token | unterminated
      if this = ("]" : Text) && !items.isEmpty then return items
      let first ← setItem scope this
      if !(← Read.accept '-') then setItems scope start fuel (items ++ [first])
      else
        let some that ← Read.token | unterminated
        if that = ("]" : Text) then return items ++ [first, .literal 45]
        let second ← setItem scope that
        let bad {α : Type} : Read α :=
          Read.fail (("bad character range " : Text) ++ this ++ "-" ++ that)
            (this.length + 1 + that.length)
        match first, second with
        | .literal lo, .literal hi =>
            if hi < lo then bad else setItems scope start fuel (items ++ [.range lo hi])
        | _, _ => bad

/-- A set behind its opening bracket. -/
def charSet (scope : Scope) : Read Pattern := do
  let start := (← Read.tell) - 1
  let negated ← Read.accept '^'
  let items ← setItems scope start ((← get).source.tokens.length + 1) []
  return .one ⟨negated, items, scope.rule⟩

/-- A count of repetitions, which is limited. -/
def count (digits : Text) : Read Nat := do
  if Number.maxDigits < digits.length then throw (.fault .digitLimit)
  let n := numeral 10 digits
  if maxRepeat ≤ n then throw (.fault .repeatLimit)
  return n

/-- The bounds in braces, behind the opening one at `here`; none if the braces are
no bounds. -/
def bounds (here : Nat) : Read (Option (Nat × Option Nat)) := do
  if ← Read.nextIs '}' then return none
  let room := (← get).source.tokens.length
  let lo ← Read.takeWhile CodePoint.isAsciiDigit room
  let comma ← Read.accept ','
  let hi ← if comma then Read.takeWhile CodePoint.isAsciiDigit room else pure lo
  if !(← Read.accept '}') then return none
  let least ← if lo.isEmpty then pure 0 else count lo
  if hi.isEmpty then return some (least, none)
  let most ← count hi
  if most < least then Read.failAt "min repeat greater than max repeat" here
  return some (least, some most)

/-- The part that a repetition repeats, if one can be repeated here. `here` is the
place behind the repetition's first token. -/
def repeatable (here : Nat) : List Pattern → Read Pattern
  | [] => Read.failAt "nothing to repeat" (here - 1)
  | .anchor _ :: _ => Read.failAt "nothing to repeat" (here - 1)
  | .repeated .. :: _ => Read.failAt "multiple repeat" (here - 1)
  | part :: _ => return part

/-- What a repetition does with the text it takes: a question mark behind it makes it
take as little as it can, a plus makes it keep what it took. Only one of them is a
part of the repetition. -/
def greed : Read Greed := do
  if ← Read.accept '?' then return .least
  if ← Read.accept '+' then return .possessive
  return .most

/-- The parts with the last one repeated. -/
def repeatLast (here least : Nat) (most : Option Nat) (parts : List Pattern) :
    Read (List Pattern) := do
  let part ← repeatable here parts
  let greed ← greed
  return .repeated greed least most part :: parts.drop 1

/-- The flags that follow one another in a group, `token` being the first, and
the token behind them. `wanted` names what may end them, and `missing` what is
missing where a flag was needed. -/
def flagRun (off : Bool) (enders : List Text) (missing : Text) :
    (fuel : Nat) → (flags : List Flag) → (token : Text) → Read (List Flag × Text)
  | 0, flags, token => return (flags, token)
  | fuel + 1, flags, token => do
      match Flag.ofToken? token with
      | none => return (flags, token)
      | some f =>
          if off then
            if f.isAlphabet then
              Read.fail "bad inline flags: cannot turn off flags 'a', 'u' and 'L'" 0
          else
            if f == .locale then
              Read.fail "bad inline flags: cannot use 'L' flag with a str pattern" 0
            if f.isAlphabet && flags.any (fun g => g.isAlphabet && g != f) then
              Read.fail "bad inline flags: flags 'a', 'u' and 'L' are incompatible" 0
          let some next ← Read.token | Read.fail (("missing " : Text) ++ missing) 0
          if enders.contains next then return (f :: flags, next)
          else if (Flag.ofToken? next).isNone then
            let alphabetic := next.length = 1 && next.all fun c => c.isAlphanumeric && !c.isDigit
            let message : Text := if alphabetic then "unknown flag" else ("missing " : Text) ++ missing
            Read.fail message next.length
          else flagRun off enders missing fuel (f :: flags) next

/-- The flags of a group, of which `token` is the first token: none if they are for
the whole pattern, and otherwise those to switch on and off. -/
def groupFlags (token : Text) : Read (Option (List Flag × List Flag)) := do
  let room := (← get).source.tokens.length + 1
  let (on, ender) ←
    if token = ("-" : Text) then pure ([], token)
    else flagRun false [")", "-", ":"] "-, : or )" room [] token
  if ender = (")" : Text) then
    modify fun r => { r with flags := r.flags ++ on }
    return none
  if on.contains .template then Read.fail "bad inline flags: cannot turn on global flag" 1
  let off ←
    if ender = ("-" : Text) then do
      let some first ← Read.token | Read.fail "missing flag" 0
      if (Flag.ofToken? first).isNone then
        let alphabetic := first.length = 1 && first.all fun c => c.isAlphanumeric && !c.isDigit
        Read.fail (if alphabetic then "unknown flag" else "missing flag") first.length
      let (off, _) ← flagRun true [":"] ":" room [] first
      pure off
    else pure []
  if off.contains .template then Read.fail "bad inline flags: cannot turn off global flag" 1
  if on.any off.contains then Read.fail "bad inline flags: flag turned on and off" 1
  return some (on, off)

/-- Opens the next group. -/
def openGroup (name : Option Text) : Read Nat := do
  let r ← get
  let index := r.widths.length
  set { r with widths := r.widths ++ [none] }
  match name with
  | none => return index
  | some name =>
      match r.names.find? fun (known, _) => known == name with
      | some (_, other) =>
          Read.fail (("redefinition of group name " : Text) ++ name.quoted ++ " as group "
            ++ Text.ofNat index ++ "; was group " ++ Text.ofNat other) (name.length + 1)
      | none =>
          modify fun r => { r with names := r.names ++ [(name, index)] }
          return index

/-- Closes a group around its body. -/
def closeGroup (index : Nat) (body : Pattern) : Read Unit :=
  modify fun r => { r with widths := r.widths.set index (some body.width) }

/-- A group name must be an identifier. -/
def guardName (name : Text) : Read Unit := do
  if !name.isIdentifier then
    Read.fail (("bad character in group name " : Text) ++ name.quoted) (name.length + 1)

/-- The number of a group that goes by a name. -/
def groupNamed (name : Text) : Read Nat := do
  match (← get).names.find? fun (known, _) => known == name with
  | some (_, index) => return index
  | none => Read.fail (("unknown group name " : Text) ++ name.quoted) (name.length + 1)

/-- The greatest number of groups. -/
def maxGroups : Nat := 1073741823

/-- The group that a condition names, by name or number. -/
def conditionGroup : Read Nat := do
  let name ← Read.name ')' "group name"
  let back := name.length + 1
  if name.isIdentifier then groupNamed name
  else
    match Numeral.generous? 10 name with
    | some (.ofNat n) =>
        if n = 0 then Read.fail "bad group number" back
        if maxGroups ≤ n then
          Read.fail (("invalid group reference " : Text) ++ Text.ofNat n) back
        let place := (← Read.tell) - back
        modify fun r =>
          if r.tests.any (·.1 == n) then r else { r with tests := r.tests ++ [(n, place)] }
        return n
    | _ => Read.fail (("bad character in group name " : Text) ++ name.quoted) back

/-- Skips a comment that began at `start`. -/
def skipComment (start : Nat) : Nat → Read Unit
  | 0 => return
  | n + 1 => do
      match ← Read.token with
      | none => Read.failAt "missing ), unterminated comment" start
      | some t => if t = (")" : Text) then return else skipComment start n

/-- Skips to the end of the line in a verbose pattern. -/
def skipLine : Nat → Read Unit
  | 0 => return
  | n + 1 => do
      match ← Read.token with
      | none => return
      | some t => if t = ("\n" : Text) then return else skipLine n

/-- What a group is, by what stands behind its opening parenthesis. -/
inductive GroupKind where
  | capture (name : Option Text)
  | plain
  | flagged (on off : List Flag)
  | globalFlags
  | atomic
  | comment
  | lookAhead (negated : Bool)
  | lookBehind (negated : Bool)
  | reference (group : Nat)
  | condition (group : Nat)

/-- Reads what stands behind an opening parenthesis at `start`. -/
def groupKind (start : Nat) : Read GroupKind := do
  let ended {α : Type} : Read α := Read.fail "unexpected end of pattern" 0
  if !(← Read.accept '?') then return .capture none
  let some t ← Read.token | ended
  if t = ("P" : Text) then
    if ← Read.accept '<' then
      let name ← Read.name '>' "group name"
      guardName name
      return .capture (some name)
    else if ← Read.accept '=' then
      let name ← Read.name ')' "group name"
      guardName name
      let group ← groupNamed name
      if !isClosed (← get) group then
        Read.fail "cannot refer to an open group" (name.length + 1)
      return .reference group
    else
      let some u ← Read.token | ended
      Read.fail (("unknown extension ?P" : Text) ++ u) (u.length + 2)
  else if t = (":" : Text) then return .plain
  else if t = ("#" : Text) then
    skipComment start ((← get).source.tokens.length + 1)
    return .comment
  else if t = ("=" : Text) then return .lookAhead false
  else if t = ("!" : Text) then return .lookAhead true
  else if t = ("<" : Text) then
    let some u ← Read.token | ended
    if u = ("=" : Text) then return .lookBehind false
    else if u = ("!" : Text) then return .lookBehind true
    else Read.fail (("unknown extension ?<" : Text) ++ u) (u.length + 2)
  else if t = ("(" : Text) then
    let group ← conditionGroup
    guardBehind group
    return .condition group
  else if t = (">" : Text) then return .atomic
  else if t = ("-" : Text) || (Flag.ofToken? t).isSome then
    match ← groupFlags t with
    | some (on, off) => return .flagged on off
    | none => return .globalFlags
  else Read.fail (("unknown extension ?" : Text) ++ t) (t.length + 1)

/-- Takes the parenthesis that closes what began at `start`. -/
def closing (start : Nat) : Read Unit := do
  if !(← Read.accept ')') then Read.failAt "missing ), unterminated subpattern" start

/-- The blanks that a verbose pattern may hold. -/
def isVerboseBlank (t : Text) : Bool :=
  match t with
  | [c] => c = ' ' || c.within 9 13
  | _ => false

/-- Parts in a row as one pattern. -/
def sequence (parts : List Pattern) : Pattern := .seq parts.reverse

mutual

/-- Alternatives up to the end or a closing parenthesis. -/
def alternatives (top : Bool) : (fuel : Nat) → (scope : Scope) → (first : Bool) → Read (List Pattern)
  | 0, _, _ => return []
  | fuel + 1, scope, first => do
      let branch ← parts fuel scope (top && first) []
      if ← Read.accept '|' then
        let flags := (← get).flags
        let scope := if top then Scope.ofFlags flags else scope
        return branch :: (← alternatives top fuel scope false)
      else return [branch]

/-- Parts up to the end, a bar or a closing parenthesis, after those read so far,
last first. `first` says whether flags for the whole pattern may still come. -/
def parts : (fuel : Nat) → (scope : Scope) → (first : Bool) → (read : List Pattern) → Read Pattern
  | 0, _, _, read => return sequence read
  | fuel + 1, scope, first, read => do
      match ← Read.peek with
      | none => return sequence read
      | some t =>
          if t = ("|" : Text) || t = (")" : Text) then return sequence read
          let _ ← Read.token
          if scope.verbose && isVerboseBlank t then parts fuel scope first read
          else if scope.verbose && t = ("#" : Text) then
            skipLine ((← get).source.tokens.length + 1)
            parts fuel scope first read
          else
            match t with
            | [b, letter] => parts fuel scope first ((← escape scope [b, letter] letter) :: read)
            | [c] =>
                let here ← Read.tell
                if c = '[' then parts fuel scope first ((← charSet scope) :: read)
                else if c = '?' then parts fuel scope first (← repeatLast here 0 (some 1) read)
                else if c = '*' then parts fuel scope first (← repeatLast here 0 none read)
                else if c = '+' then parts fuel scope first (← repeatLast here 1 none read)
                else if c = '{' then
                  let behind := (← get).source
                  match ← bounds here with
                  | some (least, most) =>
                      parts fuel scope first (← repeatLast here least most read)
                  | none =>
                      modify fun r => { r with source := behind }
                      parts fuel scope first (literal scope c.val :: read)
                else if c = '.' then parts fuel scope first (.any scope.dotAll :: read)
                else if c = '^' then
                  parts fuel scope first (.anchor (.lineStart scope.multiline) :: read)
                else if c = '$' then
                  parts fuel scope first (.anchor (.lineEnd scope.multiline) :: read)
                else if c = '(' then
                  let start := here - 1
                  match ← groupKind start with
                  | .globalFlags =>
                      if !first || !read.isEmpty then
                        Read.failAt "global flags not at the start of the expression" start
                      parts fuel (Scope.ofFlags (← get).flags) first read
                  | kind =>
                      let group ← groupBody fuel scope start kind
                      parts fuel scope first (group.toList ++ read)
                else parts fuel scope first (literal scope c.val :: read)
            | _ => parts fuel scope first read

/-- The rest of a group behind its opening. A comment is no part. -/
def groupBody : (fuel : Nat) → (scope : Scope) → (start : Nat) → GroupKind → Read (Option Pattern)
  | 0, _, _, _ => return none
  | fuel + 1, scope, start, kind => do
      let body (scope : Scope) : Read Pattern := do
        let branches ← alternatives false fuel scope true
        return match branches with
          | [branch] => branch
          | branches => .alt branches
      match kind with
      | .comment => return none
      | .globalFlags => return none
      | .reference index => return some (← backReferenceTo scope index)
      | .capture name => do
          let index ← openGroup name
          let inner ← body scope
          closing start
          closeGroup index inner
          return some (.group index inner)
      | .plain => do
          let inner ← body scope
          closing start
          return some (.seq [inner])
      | .flagged on off => do
          let inner ← body (scope.switch on off)
          closing start
          return some (.seq [inner])
      | .atomic => do
          let inner ← body scope
          closing start
          return some (.atomic inner)
      | .lookAhead negated => do
          let inner ← body scope
          closing start
          return some (.lookAhead negated inner)
      | .lookBehind negated => do
          let outer := (← get).behindFrom
          modify fun r => { r with behindFrom := some (outer.getD r.widths.length) }
          let inner ← body scope
          modify fun r => { r with behindFrom := outer }
          closing start
          return some (.lookBehind negated inner)
      | .condition index => do
          let yes ← parts fuel scope false []
          let no ←
            if ← Read.accept '|' then do
              let no ← parts fuel scope false []
              if ← Read.nextIs '|' then
                Read.fail "conditional backref with more than two branches" 0
              pure no
            else pure (.seq [])
          closing start
          return some (.conditional index yes no)

end

mutual

/-- A look behind needs a fixed width, and a template repeats nothing. -/
def verify (template : Bool) : Pattern → Except Failure Unit
  | .seq parts => verifyAll template parts
  | .alt branches => verifyAll template branches
  | .repeated greed _ _ body =>
      if template then
        let operator : Text := match greed with
          | .most => "MAX_REPEAT"
          | .least => "MIN_REPEAT"
          | .possessive => "POSSESSIVE_REPEAT"
        .error (.error ⟨("internal: unsupported template operator " : Text) ++ operator, none⟩)
      else verify template body
  | .group _ body => verify template body
  | .lookAhead _ body => verify template body
  | .lookBehind _ body =>
      let (lo, hi) := width body
      if 4294967295 < lo then .error (.error ⟨"looks too much behind", none⟩)
      else if lo ≠ hi then .error (.error ⟨"look-behind requires fixed-width pattern", none⟩)
      else verify template body
  | .conditional _ yes no => do
      verify template yes
      verify template no
  | .atomic body => verify template body
  | _ => .ok ()

/-- Every part is in order. -/
def verifyAll (template : Bool) : List Pattern → Except Failure Unit
  | [] => .ok ()
  | p :: ps => do
      verify template p
      verifyAll template ps

end

/-- The whole pattern, with nothing left over. -/
def whole : Read Pattern := do
  let s := (← get).source
  Read.guardDangling s
  let branches ← alternatives true (4 * s.tokens.length + 8) (Scope.ofFlags []) true
  let r ← get
  if r.flags.contains .ascii && r.flags.contains .unicode then throw (.fault .flagConflict)
  if !r.source.tokens.isEmpty then Read.fail "unbalanced parenthesis" 0
  match r.tests.find? fun (index, _) => r.widths.length ≤ index with
  | some (index, place) =>
      Read.failAt (("invalid group reference " : Text) ++ Text.ofNat index) place
  | none =>
      let pattern : Pattern := match branches with
        | [branch] => branch
        | branches => .alt branches
      verify (r.flags.contains .template) pattern
      return pattern

/-- The pattern that a text writes, with the code points that have a name. -/
def parse (characters : Text → Option Nat) (text : Text) : Except Failure Pattern :=
  let (tokens, dangling) := tokenize text
  whole.run' ⟨characters, ⟨tokens, 0, dangling⟩, [], [none], [], none, []⟩

end Pattern

end EdnLint
