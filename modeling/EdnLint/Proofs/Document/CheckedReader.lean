import EdnLint.Document.Reader

/-!
# A reader that checks what it takes for granted

A document can also be read by descent: a collection reads its forms, a wrapper the
forms it requires, and both call for a form wherever one begins. Such a reader looks
into the text at an offset and rests on facts that its callers have to establish:
there is a code point to take, a form can begin where one is called for, and every
form takes some of the text. `CheckedReader` tests each of these where it is used. A
test that fails stops the whole run with a `Breach`, which nothing handles, and so
does a loop that runs for more than `bound` rounds or a form that is nested deeper.

The forms of a document are read by the reader for nested forms that they are given,
and `CheckedReader.form` ties the knot.
-/

namespace EdnLint

/-- What a reader by descent takes for granted, and finds not to hold. -/
inductive Breach where
  /-- A code point is taken at the end of the text. -/
  | pastEnd
  /-- A form is called for where none can begin. -/
  | noForm
  /-- A form ends where it began, or behind the text. -/
  | noProgress
  /-- The token of an atom is empty. -/
  | emptyToken
  /-- The tag of a tagged form is empty. -/
  | emptyTag
  /-- A loop or a descent has gone on for too long. -/
  | endless
  deriving DecidableEq, Repr

/-- Why a checked reader stopped. -/
inductive Ending where
  | failure (failure : ReadFailure)
  | breach (breach : Breach)
  deriving DecidableEq, Repr

/-- A reader by descent: it moves a position. -/
abbrev CheckedReader (α : Type) := StateT Position (Except Ending) α

/-- A form begins with any code point that is neither a blank nor the beginning of a
comment nor a closing delimiter. -/
def CodePoint.beginsForm (c : CodePoint) : Bool := !(c.isBlank || c = ';' || c.isCloser)

namespace CheckedReader

/-- An assumption does not hold. -/
def breach {α : Type} (b : Breach) : CheckedReader α := throw (.breach b)

/-- A failure at a place. -/
def failAt {α : Type} (cause : ReadError.Cause) (position : Position) : CheckedReader α :=
  throw (.failure (.error ⟨cause, position⟩))

section

variable (text : Text) (bound : Nat)

/-- The code point so many places ahead; none behind the text. -/
def peek (ahead : Nat) : CheckedReader (Option CodePoint) := do
  return text[(← get).offset + ahead]?

/-- Takes a code point, which has to be there. -/
def take : CheckedReader CodePoint := do
  match ← peek text 0 with
  | some c =>
      modify (·.next c)
      return c
  | none => breach .pastEnd

/-- Takes so many code points. -/
def skip : Nat → CheckedReader Unit
  | 0 => return ()
  | n + 1 => do
      let _ ← take text
      skip n

/-- Takes the code points up to one that `stop` holds of, in at most `n` rounds. -/
def span (stop : CodePoint → Bool) : Nat → CheckedReader Text
  | 0 => breach .endless
  | n + 1 => do
      match ← peek text 0 with
      | none => return []
      | some c =>
          if stop c then return []
          else
            let _ ← take text
            return c :: (← span stop n)

/-- The rest of a token. -/
def token : CheckedReader Text := span text CodePoint.isTerminator bound

/-- Takes blanks and comments. -/
def skipBlank : Nat → CheckedReader Unit
  | 0 => breach .endless
  | n + 1 => do
      match ← peek text 0 with
      | none => return ()
      | some c =>
          if c.isBlank then
            let _ ← take text
            skipBlank n
          else if c = ';' then
            let _ ← span text (· = CodePoint.ofChar '\n') bound
            skipBlank n
          else return ()

/-- The forms up to a closing delimiter, which is left there, or up to the end of the
text. A collection gives its closing delimiter and the place it began at. -/
def forms (form : CheckedReader (Option Node)) (closing : Option (CodePoint × Position)) :
    Nat → CheckedReader (List Node)
  | 0 => breach .endless
  | n + 1 => do
      skipBlank text bound bound
      match ← peek text 0 with
      | none =>
          match closing with
          | none => return []
          | some (closer, start) => failAt (.unclosed closer) start
      | some c =>
          if c.isCloser then
            if closing.map Prod.fst = some c then return []
            else failAt (.unmatched c) (← get)
          else
            let found ← form
            return found.toList ++ (← forms form closing n)

/-- The next form that is not discarded, as the part `part` of what began at `start`. -/
def required (form : CheckedReader (Option Node)) (part : Part) (start : Position) :
    Nat → CheckedReader Node
  | 0 => breach .endless
  | n + 1 => do
      skipBlank text bound bound
      match ← peek text 0 with
      | none => failAt (.endWithin part) start
      | some c =>
          if c.isCloser then failAt (.unexpected c part) (← get)
          else
            match ← form with
            | some node => return node
            | none => required form part start n

/-- A collection whose opening delimiter has so many code points. -/
def collection (form : CheckedReader (Option Node)) (shape : Shape) (opening : Nat)
    (closer : CodePoint) : CheckedReader Node := do
  let start ← get
  skip text opening
  let found ← forms text bound form (some (closer, start)) bound
  let _ ← take text
  return .mk shape start (← get) found

/-- What an escape means. It begins with a backslash at `place`, in a string that began
at `start`. -/
def escape (pattern : Bool) (start place : Position) : CheckedReader Text := do
  match ← peek text 0 with
  | none => failAt .endWithinString start
  | some _ =>
      let c ← take text
      if pattern then return ['\\', c]
      else
        match Scalar.escape? c with
        | some d => return [d]
        | none =>
            if c = 'u' then
              let digits := (text.drop (← get).offset).take 4
              match Scalar.fourHex? digits with
              | some d =>
                  skip text digits.length
                  return [d]
              | none => failAt (.invalidEscape digits) place
            else failAt (.unsupportedEscape c) place

/-- What a string means from here to its closing quote, which is taken too. -/
def quoted (pattern : Bool) (start : Position) : Nat → CheckedReader Text
  | 0 => breach .endless
  | n + 1 => do
      match ← peek text 0 with
      | none => failAt .endWithinString start
      | some _ =>
          let place ← get
          let c ← take text
          if c = '"' then return []
          else if c = '\\' then
            let meant ← escape text pattern start place
            return meant ++ (← quoted pattern start n)
          else return c :: (← quoted pattern start n)

/-- A string, or a pattern. -/
def string (pattern : Bool) : CheckedReader Node := do
  let start ← get
  skip text (if pattern then 2 else 1)
  let value ← quoted text pattern start bound
  return Reader.scalar (.string value) start (← get)

/-- A character behind its backslash. -/
def character : CheckedReader Node := do
  let start ← get
  let _ ← take text
  match ← peek text 0 with
  | none => failAt .endWithinCharacter start
  | some _ =>
      let c ← take text
      let name := c :: (← token text bound)
      match Scalar.character? name with
      | some value => return Reader.scalar (.string value) start (← get)
      | none => failAt (.unsupportedCharacter name) start

/-- An atom that stands by itself. -/
def atom : CheckedReader Node := do
  let start ← get
  let token ← token text bound
  if token.isEmpty then breach .emptyToken
  else
    match Scalar.ofToken token with
    | .ok value => return Reader.scalar value start (← get)
    | .error .number => failAt (.invalidNumber token) start
    | .error .keyword => failAt (.invalidKeyword token) start
    | .error (.fault fault) => throw (.failure (.fault fault))

/-- The value that a token behind `##` names. -/
def symbolic : CheckedReader Node := do
  let start ← get
  skip text 2
  let token ← token text bound
  match Scalar.ofSymbolic? token with
  | some value => return Reader.scalar value start (← get)
  | none => failAt (.unknownSymbolic token) start

/-- The last form that a wrapper requires, behind the forms that it already has. -/
def wrapper (form : CheckedReader (Option Node)) (shape : Shape) (part : Part) (start : Position)
    (forms : List Node) : CheckedReader Node := do
  let target ← required text bound form part start bound
  return .mk shape start (← get) (forms ++ [target])

/-- A tag and the form it stands in front of. -/
def tagged (form : CheckedReader (Option Node)) : CheckedReader Node := do
  let start ← get
  let _ ← take text
  let tag ← token text bound
  if tag.isEmpty then breach .emptyTag
  else wrapper text bound form (.tagged tag) (.taggedForm tag) start []

/-- Metadata and the form they stand in front of. -/
def metadata (form : CheckedReader (Option Node)) : CheckedReader Node := do
  let start ← get
  let _ ← take text
  let data ← required text bound form .metadata start bound
  wrapper text bound form .metadata .metadataTarget start [data]

/-- A quoted form. -/
def quote (form : CheckedReader (Option Node)) : CheckedReader Node := do
  let start ← get
  let _ ← take text
  wrapper text bound form .quote .quotedForm start []

/-- A discarded form. -/
def discard (form : CheckedReader (Option Node)) : CheckedReader Unit := do
  let start ← get
  skip text 2
  let _ ← required text bound form .discardedForm start bound

/-- What begins with a `#`. -/
def dispatch (form : CheckedReader (Option Node)) : CheckedReader (Option Node) := do
  match ← peek text 1 with
  | none => failAt .invalidDispatch (← get)
  | some c =>
      if c = '{' then return some (← collection text bound form .set 2 '}')
      else if c = '"' then return some (← string text bound true)
      else if c = '_' then
        discard text bound form
        return none
      else if c = '#' then return some (← symbolic text bound)
      else if c.isTerminator then failAt .invalidDispatch (← get)
      else return some (← tagged text bound form)

/-- A form, or none if it is discarded. -/
def formWith (form : CheckedReader (Option Node)) : CheckedReader (Option Node) := do
  match ← peek text 0 with
  | none => breach .pastEnd
  | some c =>
      if !c.beginsForm then breach .noForm
      else
        match Reader.opening? c with
        | some (shape, closer) => return some (← collection text bound form shape 1 closer)
        | none =>
            if c = '"' then return some (← string text bound false)
            else if c = '\\' then return some (← character text bound)
            else if c = '#' then dispatch text bound form
            else if c = '^' then return some (← metadata text bound form)
            else if c = '\'' then return some (← quote text bound form)
            else return some (← atom text bound)

/-- A form that has forms nested in it up to the given depth. It has to take some of the
text, and no more than there is. -/
def form : Nat → CheckedReader (Option Node)
  | 0 => breach .endless
  | depth + 1 => do
      let start ← get
      let found ← formWith text bound (form depth)
      let stop ← get
      if start.offset < stop.offset ∧ stop.offset ≤ text.length then return found
      else breach .noProgress

/-- The tree of a document. -/
def document : CheckedReader Node := do
  let found ← forms text bound (form text bound bound) none bound
  return .mk .document .first (← get) found

/-- Reads a text from its beginning. -/
def read : Except Ending Node := ((document text bound).run .first).map Prod.fst

end

end CheckedReader

end EdnLint
