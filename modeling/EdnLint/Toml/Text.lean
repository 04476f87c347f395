import EdnLint.Toml.Error

/-!
# Blanks, comments, strings and keys of TOML

Each reader takes the text still to be read and gives what it has read with the
text behind it. A literal string ends at its first closing mark, and its inside is
looked at afterwards; a basic string is read character by character, so in it the
first offence counts.
-/

namespace EdnLint

namespace Toml

/-- Refuses the text still to be read. -/
def refuse {α : Type} (cause : Cause) (rest : Text) : Except Stop α := .error (.error cause rest)

/-- Blanks within a line. -/
def isBlank (c : CodePoint) : Bool := c = ' ' || c = '\t'

/-- Blanks and line ends. -/
def isSpace (c : CodePoint) : Bool := isBlank c || c = '\n'

/-- The text without blanks in front. -/
def skipBlanks (t : Text) : Text := t.dropWhile isBlank

/-- What may stand in a comment or in a string on one line. -/
def isLineChar (c : CodePoint) : Bool := c = '\t' || (31 < c.val && c.val ≠ 127)

/-- What may stand in a string over several lines. -/
def isBlockChar (c : CodePoint) : Bool := isLineChar c || c = '\n'

/-- Refuses the first character of `part` that is not allowed. -/
def allow (allowed : CodePoint → Bool) (part after : Text) : Except Stop Unit :=
  match part.dropWhile allowed with
  | [] => .ok ()
  | c :: t => refuse (.invalid c) (c :: t ++ after)

/-- The text behind a comment, which ends with its line. -/
def skipComment : Text → Except Stop Text
  | [] => .ok []
  | c :: t =>
      if c = '#' then do
        let after := t.dropWhile (· != CodePoint.ofChar '\n')
        allow isLineChar (t.takeWhile (· != CodePoint.ofChar '\n')) after
        return after
      else .ok (c :: t)

/-- The text behind white space and comments over several lines. `fuel` bounds the
number of comments. -/
def skipSpace : (fuel : Nat) → Text → Except Stop Text
  | 0, t => .ok t
  | fuel + 1, t => do
      let t := t.dropWhile isSpace
      if t.head? = some (CodePoint.ofChar '#') then skipSpace fuel (← skipComment t)
      else return t

/-- The text before and after the first occurrence of a mark. -/
def splitAtMark? (mark : Text) : Text → Option (Text × Text)
  | [] => none
  | c :: t =>
      if mark.isPrefixOf (c :: t) then some ([], (c :: t).drop mark.length)
      else (splitAtMark? mark t).map fun (before, after) => (c :: before, after)

/-- The rest of a literal string up to its closing mark. -/
def literal (mark : Text) (allowed : CodePoint → Bool) (t : Text) : Except Stop (Text × Text) :=
  match splitAtMark? mark t with
  | none => refuse (.expected mark) []
  | some (inside, after) => do
      allow allowed inside (mark ++ after)
      return (inside, after)

/-- What a one-letter escape stands for. -/
def escape? (c : CodePoint) : Option CodePoint :=
  if c = 'b' then some (CodePoint.ofChar '\x08')
  else if c = 't' then some '\t'
  else if c = 'n' then some '\n'
  else if c = 'f' then some (CodePoint.ofChar '\x0c')
  else if c = 'r' then some '\r'
  else if c = '"' then some '"'
  else if c = '\\' then some '\\'
  else none

/-- The character of an escape with `width` hexadecimal digits. -/
def numbered (width : Nat) (t : Text) : Except Stop (Text × Text) :=
  match (t.take width).mapM CodePoint.hexValue? with
  | none => refuse .hexadecimal t
  | some digits =>
      if digits.length < width then refuse .hexadecimal t
      else
        let rest := t.drop width
        match CodePoint.ofNat? (digits.foldl (fun n d => 16 * n + d) 0) with
        | some c => if c.isSurrogate then refuse .notScalar rest else .ok ([c], rest)
        | none => refuse .notScalar rest

/-- What an escape stands for, read behind its backslash. In a string over several
lines a backslash at the end of a line takes away the white space that follows. -/
def escape (block : Bool) : Text → Except Stop (Text × Text)
  | [] => refuse .escape []
  | c :: t =>
      if block && c = '\n' then .ok ([], t.dropWhile isSpace)
      else if block && isBlank c then
        match skipBlanks t with
        | [] => .ok ([], [])
        | d :: u => if d = '\n' then .ok ([], u.dropWhile isSpace) else refuse .escape (d :: u)
      else if c = 'u' then numbered 4 t
      else if c = 'U' then numbered 8 t
      else
        match escape? c with
        | some d => .ok ([d], t)
        | none => refuse .escape t

/-- The rest of a basic string up to its closing marks; `read` is what came before,
last first. -/
def basicFrom (block : Bool) : (fuel : Nat) → (read : Text) → Text → Except Stop (Text × Text)
  | 0, _, t => refuse .unterminated t
  | _ + 1, _, [] => refuse .unterminated []
  | fuel + 1, read, c :: t =>
      if c = '"' then
        if !block then .ok (read.reverse, t)
        else if ("\"\"" : Text).isPrefixOf t then .ok (read.reverse, t.drop 2)
        else basicFrom block fuel (c :: read) t
      else if c = '\\' then do
        let (piece, t) ← escape block t
        basicFrom block fuel (piece.reverse ++ read) t
      else if (if block then isBlockChar c else isLineChar c) then
        basicFrom block fuel (c :: read) t
      else refuse (.illegal c) (c :: t)

/-- The rest of a basic string up to its closing marks. -/
def basic (block : Bool) (t : Text) : Except Stop (Text × Text) := basicFrom block (t.length + 1) [] t

/-- The rest of a string over several lines. A line end at its start is not part of
it; one or two further closing marks are. -/
def blockString (quote : CodePoint) (t : Text) : Except Stop (Text × Text) := do
  let t := if t.head? = some (CodePoint.ofChar '\n') then t.tail else t
  let (inside, t) ←
    if quote = '\'' then literal [quote, quote, quote] isBlockChar t else basic true t
  let extra := (t.take 2).takeWhile (· = quote)
  return (inside ++ extra, t.drop extra.length)

/-- The rest of a string whose opening mark `quote` has been read. -/
def string (quote : CodePoint) (t : Text) : Except Stop (Text × Text) :=
  if [quote, quote].isPrefixOf t then blockString quote (t.drop 2)
  else if quote = '\'' then literal [quote] isLineChar t
  else basic false t

/-- What a key part without quotes is made of. -/
def isBare (c : CodePoint) : Bool :=
  c.isAsciiLetter || c.isAsciiDigit || c = '-' || c = '_'

/-- One part of a key. -/
def keyPart : Text → Except Stop (Text × Text)
  | [] => refuse .keyStart []
  | c :: t =>
      if isBare c then .ok ((c :: t).takeWhile isBare, (c :: t).dropWhile isBare)
      else if c = '\'' then literal [c] isLineChar t
      else if c = '"' then basic false t
      else refuse .keyStart (c :: t)

/-- A key with the blanks behind it. `fuel` bounds the number of its parts. -/
def keyFrom : (fuel : Nat) → Text → Except Stop (Dotted × Text)
  | 0, t => refuse .keyStart t
  | fuel + 1, t => do
      let (part, t) ← keyPart t
      match skipBlanks t with
      | [] => return ([part], [])
      | c :: t =>
          if c = '.' then
            let (parts, t) ← keyFrom fuel (skipBlanks t)
            return (part :: parts, t)
          else return ([part], c :: t)

/-- A key with the blanks behind it. -/
def key (t : Text) : Except Stop (Dotted × Text) := keyFrom (t.length + 1) t

end Toml

end EdnLint
