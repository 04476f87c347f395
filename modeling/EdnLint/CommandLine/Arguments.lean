import EdnLint.CommandLine.Usage
import EdnLint.Log
import EdnLint.Number.Numeral

/-!
# Reading the command line

The words are told apart first: options, which may be shortened and may carry a
value behind an equals sign, a divider, behind which there are no options, and
operands. Every option then takes what it needs of the operands behind it, and
what no option takes is left over. The errors of options come up from left to
right; left-over words are an error only if nothing else is one.
-/

namespace EdnLint

namespace CommandLine

/-- A word of the command line. -/
inductive Word where
  | operand (text : Text)
  | divider
  /-- An option, with the value behind its equals sign. -/
  | long (s : Switch) (value : Option Text)
  /-- The short option, with what is written together with it. -/
  | short (value : Option Text)
  /-- A word that looks like an option. -/
  | unknown (text : Text)
  deriving DecidableEq, Repr

/-- What the program is asked to do. At most one of these can be asked for. -/
inductive Mode where
  | unset
  | stdio
  | tcp (port : Int)
  | check (files : List Text)
  deriving DecidableEq, Repr

/-- The option that asks for a mode. -/
def Mode.switch? : Mode → Option Switch
  | .unset => none
  | .stdio => some .stdio
  | .tcp _ => some .tcp
  | .check _ => some .check

/-- What the command line says. -/
structure Arguments where
  mode : Mode
  paths : List Text
  version : Bool
  level : Nat
  deriving DecidableEq, Repr

/-- What an empty command line says. -/
def Arguments.default : Arguments := ⟨.unset, [], false, LogRecord.warningLevel⟩

/-- Why reading the command line ended early. -/
inductive Ending where
  | help
  | refused (error : UsageError)
  deriving DecidableEq, Repr

/-- The short form of the option for help. -/
def shortHelp : Text := "-h"

/-- A text behind a dash and digits of any script, perhaps with a point: a number
and not an option. A line end behind it does not count. -/
def isNegativeNumber (word : Text) : Bool :=
  let word := if word.getLast? = some (CodePoint.ofChar '\n') then word.dropLast else word
  match word with
  | [] => false
  | dash :: t =>
      let isDigit (c : CodePoint) : Bool := c.digitValue?.isSome
      let rest := t.dropWhile isDigit
      dash = '-' &&
        match rest with
        | [] => !t.isEmpty
        | point :: places => point = '.' && !places.isEmpty && places.all isDigit

/-- A word with a dash in front that no option begins with. -/
def unmatched (word : Text) : Word :=
  if isNegativeNumber word || word.contains (CodePoint.ofChar ' ') then .operand word
  else .unknown word

/-- A word with two dashes in front: an option in full or shortened. -/
def longWord (word : Text) : Except UsageError Word :=
  match Switch.all.find? fun s => s.long == word with
  | some s => .ok (.long s none)
  | none =>
      let (start, value) := match Text.splitFirst? '=' word with
        | some (start, value) => (start, some value)
        | none => (word, none)
      match Switch.all.find? fun s => s.long == start with
      | some s => .ok (.long s value)
      | none =>
          match Switch.all.filter fun s => start.isPrefixOf s.long with
          | [] => .ok (unmatched word)
          | [s] => .ok (.long s value)
          | candidates => .error (.ambiguous word candidates)

/-- A word with one dash in front. -/
def shortWord (word : Text) : Word :=
  if word = shortHelp then .short none
  else if shortHelp.isPrefixOf word then
    let value := word.drop 2
    .short (some (if value.head? = some (CodePoint.ofChar '=') then value.tail else value))
  else unmatched word

/-- What kind of word it is. -/
def classify (word : Text) : Except UsageError Word :=
  match word with
  | a :: b :: _ =>
      if a = '-' then if b = '-' then longWord word else .ok (shortWord word)
      else .ok (.operand word)
  | _ => .ok (.operand word)

/-- The words of a command line. -/
def words : List Text → Except UsageError (List Word)
  | [] => .ok []
  | word :: rest =>
      if word = ("--" : Text) then .ok (.divider :: rest.map .operand)
      else do
        let w ← classify word
        return w :: (← words rest)

/-- The operands in front, and every other word with the operands behind it. -/
def segments : List Word → List Text × List (Word × List Text)
  | [] => ([], [])
  | .operand t :: ws =>
      let (front, rest) := segments ws
      (t :: front, rest)
  | w :: ws =>
      let (front, rest) := segments ws
      ([], (w, front) :: rest)

/-- The words that an option takes, and those it leaves. A value behind the equals
sign is all that it takes. -/
def takeValues (s : Switch) (value : Option Text) (operands : List Text) :
    Except UsageError (List Text × List Text) :=
  match s.arity, value, operands with
  | .none, some value, _ => .error (.unexpected s value)
  | _, some value, operands => .ok ([value], operands)
  | .none, none, operands => .ok ([], operands)
  | _, none, [] => .error (.missing s)
  | .one, none, word :: operands => .ok ([word], operands)
  | .many, none, operands => .ok (operands, [])

/-- Asks for a mode. -/
def Arguments.choose (a : Arguments) (s : Switch) (mode : Mode) : Except Ending Arguments :=
  match a.mode.switch? with
  | some other =>
      if other = s then .ok { a with mode := mode } else .error (.refused (.conflict s other))
  | none => .ok { a with mode := mode }

/-- Puts an option with its values into the arguments. -/
def Arguments.set (a : Arguments) (s : Switch) (values : List Text) : Except Ending Arguments :=
  let value := values.head?.getD []
  match s with
  | .help => .error .help
  | .stdio => a.choose s .stdio
  | .tcp =>
      match Numeral.generous? 10 value with
      | some port => a.choose s (.tcp port)
      | none => .error (.refused (.notInteger s value))
  | .check => a.choose s (.check values)
  | .paths => .ok { a with paths := values }
  | .version => .ok { a with version := true }
  | .logLevel =>
      if levelChoices.contains value then
        .ok { a with level := (LogRecord.levelOf? value).getD a.level }
      else .error (.refused (.notChoice s value))

/-- What is written together with the short option is more of the same, or refused. -/
def shortCluster (value : Text) : Ending :=
  if value.isEmpty then .refused (.unexpected .help value)
  else
    match value.dropWhile (· = CodePoint.ofChar 'h') with
    | [] => .help
    | rest => .refused (.unexpected .help rest)

/-- Reads the segments in order; `left` are the words left over so far. -/
def readSegments : List (Word × List Text) → Arguments → (left : List Text) → Except Ending Arguments
  | [], a, left => if left.isEmpty then .ok a else .error (.refused (.unrecognized left))
  | (w, operands) :: rest, a, left =>
      match w with
      | .operand t => readSegments rest a (left ++ t :: operands)
      | .divider => readSegments rest a (left ++ ("--" : Text) :: operands)
      | .unknown t => readSegments rest a (left ++ t :: operands)
      | .short none => .error .help
      | .short (some value) => .error (shortCluster value)
      | .long s value => do
          let (values, others) ← (takeValues s value operands).mapError .refused
          readSegments rest (← a.set s values) (left ++ others)

/-- What a command line says. -/
def Arguments.ofWords (argv : List Text) : Except Ending Arguments := do
  let ws ← (words argv).mapError .refused
  let (front, rest) := segments ws
  readSegments rest .default front

end CommandLine

end EdnLint
