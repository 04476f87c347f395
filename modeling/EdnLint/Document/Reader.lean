import EdnLint.Document.Node
import EdnLint.Document.ReadError
import EdnLint.Document.Scalar

/-!
# Reading a document

The reader takes a text one code point at a time. Between two code points its
whole knowledge is a `Reader`: the position, the lexeme it is inside of
(`Mode`), and the forms it has begun (`Stack`). `Reader.step` is one code point,
`Reader.feed` a text and `Reader.finish` the end of the text, so reading two
texts in a row is reading their concatenation.

A token reaches up to the next terminator, which is then taken as if it came
after a blank. A form that is complete goes to the innermost unfinished form: a
collection keeps it, a wrapper that has all its parts becomes complete itself, a
discard drops it.
-/

namespace EdnLint

/-- The blanks between forms; the comma is one. -/
def CodePoint.isBlank (c : CodePoint) : Bool :=
  c = ' ' || c = '\t' || c = '\r' || c = '\n' || c = ',' || c = CodePoint.ofChar '\x0c'

/-- The delimiters that close a collection. -/
def CodePoint.isCloser (c : CodePoint) : Bool := c = ')' || c = ']' || c = '}'

/-- What ends a token: a blank, a delimiter, a double quote or a semicolon. -/
def CodePoint.isTerminator (c : CodePoint) : Bool :=
  c.isBlank || c.isCloser || c = '(' || c = '[' || c = '{' || c = '"' || c = ';'

/-- A form that has begun. The forms it already has are kept last first. -/
inductive Frame where
  /-- A collection up to its closing delimiter. -/
  | collection (shape : Shape) (closer : CodePoint) (start : Position) (forms : List Node)
  /-- A wrapper that still needs `part` and then `later`; without a shape it is a
  discard. -/
  | pending (shape : Option Shape) (part : Part) (later : List Part) (start : Position)
      (forms : List Node)
  deriving Repr

/-- The forms that have begun, innermost first, and the finished forms of the
document, last first. -/
structure Stack where
  frames : List Frame
  forms : List Node
  deriving Repr

namespace Stack

/-- Nothing has been read. -/
def empty : Stack := ⟨[], []⟩

/-- Begins a form. -/
def push (s : Stack) (f : Frame) : Stack := ⟨f :: s.frames, s.forms⟩

/-- Hands a finished node to the innermost form; `document` are the finished
forms of the document. -/
def deliverTo (document : List Node) (n : Node) : List Frame → Stack
  | [] => ⟨[], n :: document⟩
  | .collection shape closer start forms :: frames =>
      ⟨.collection shape closer start (n :: forms) :: frames, document⟩
  | .pending shape _ (part :: later) start forms :: frames =>
      ⟨.pending shape part later start (n :: forms) :: frames, document⟩
  | .pending (some shape) _ [] start forms :: frames =>
      deliverTo document (.mk shape start n.stop (n :: forms).reverse) frames
  | .pending none _ [] _ _ :: frames => ⟨frames, document⟩

/-- Hands a finished node to the innermost form. -/
def deliver (s : Stack) (n : Node) : Stack := deliverTo s.forms n s.frames

/-- Closes the innermost collection with a delimiter that stands at `position`. -/
def close (s : Stack) (c : CodePoint) (position : Position) : Except ReadError Stack :=
  match s.frames with
  | .collection shape closer start forms :: frames =>
      if c = closer then
        .ok (deliverTo s.forms (.mk shape start (position.next c) forms.reverse) frames)
      else .error ⟨.unmatched c, position⟩
  | .pending _ part _ _ _ :: _ => .error ⟨.unexpected c part, position⟩
  | [] => .error ⟨.unmatched c, position⟩

/-- The document, if nothing is left unfinished. -/
def document (s : Stack) (stop : Position) : Except ReadError Node :=
  match s.frames with
  | .collection _ closer start _ :: _ => .error ⟨.unclosed closer, start⟩
  | .pending _ part _ start _ :: _ => .error ⟨.endWithin part, start⟩
  | [] => .ok (.mk .document .first stop s.forms.reverse)

end Stack

/-- What the reader is inside of. Lexemes carry the place they began at and what
has been read of them, last code point first. -/
inductive Mode where
  /-- Between lexemes. -/
  | blank
  /-- In a comment, up to the end of the line. -/
  | comment
  /-- In a token. -/
  | token (start : Position) (read : Text)
  /-- Behind a `#`. -/
  | dispatch (start : Position)
  /-- In the tag of a tagged form. -/
  | tag (start : Position) (read : Text)
  /-- In the token behind `##`. -/
  | symbolic (start : Position) (read : Text)
  /-- Behind a backslash outside of strings. -/
  | backslash (start : Position)
  /-- In the name of a character. -/
  | character (start : Position) (read : Text)
  /-- In a string, or in a pattern, where escapes stay as they are. -/
  | string (pattern : Bool) (start : Position) (read : Text)
  /-- Behind the backslash of an escape, which stands at `place`. -/
  | escape (pattern : Bool) (start : Position) (read : Text) (place : Position)
  /-- In the four digits of an escape. -/
  | digits (start : Position) (read : Text) (place : Position) (digits : Text)
  deriving Repr

/-- The reader between two code points. -/
structure Reader where
  position : Position
  mode : Mode
  stack : Stack
  deriving Repr

namespace Reader

/-- The reader in front of a text. -/
def initial : Reader := ⟨.first, .blank, .empty⟩

/-- A finished scalar from `start` up to `stop`. -/
def scalar (value : Atom) (start stop : Position) : Node := .mk (.scalar value) start stop []

/-- A failure at a place. -/
def failAt {α : Type} (cause : ReadError.Cause) (position : Position) : Except ReadFailure α :=
  .error (.error ⟨cause, position⟩)

/-- The collection that an opening delimiter begins. -/
def opening? (c : CodePoint) : Option (Shape × CodePoint) :=
  if c = '(' then some (.list, ')')
  else if c = '[' then some (.vector, ']')
  else if c = '{' then some (.map, '}')
  else none

/-- A code point between lexemes. -/
def begin (s : Stack) (p : Position) (c : CodePoint) : Except ReadFailure (Mode × Stack) :=
  if c.isBlank then .ok (.blank, s)
  else if c = ';' then .ok (.comment, s)
  else if c.isCloser then
    match s.close c p with
    | .ok s => .ok (.blank, s)
    | .error e => .error (.error e)
  else
    match opening? c with
    | some (shape, closer) => .ok (.blank, s.push (.collection shape closer p []))
    | none =>
        if c = '"' then .ok (.string false p [], s)
        else if c = '\\' then .ok (.backslash p, s)
        else if c = '#' then .ok (.dispatch p, s)
        else if c = '^' then
          .ok (.blank, s.push (.pending (some .metadata) .metadata [.metadataTarget] p []))
        else if c = '\'' then
          .ok (.blank, s.push (.pending (some .quote) .quotedForm [] p []))
        else .ok (.token p [c], s)

/-- Completes the lexeme of a mode that a terminator or the end of the text ends,
at `stop`. The other modes are left as they are. -/
def complete (s : Stack) (stop : Position) : Mode → Except ReadFailure Stack
  | .token start read =>
      let token := read.reverse
      match Scalar.ofToken token with
      | .ok value => .ok (s.deliver (scalar value start stop))
      | .error .number => failAt (.invalidNumber token) start
      | .error .keyword => failAt (.invalidKeyword token) start
      | .error (.fault fault) => .error (.fault fault)
  | .tag start read =>
      let tag := read.reverse
      .ok (s.push (.pending (some (.tagged tag)) (.taggedForm tag) [] start []))
  | .symbolic start read =>
      let token := read.reverse
      match Scalar.ofSymbolic? token with
      | some value => .ok (s.deliver (scalar value start stop))
      | none => failAt (.unknownSymbolic token) start
  | .character start read =>
      let name := read.reverse
      match Scalar.character? name with
      | some value => .ok (s.deliver (scalar (.string value) start stop))
      | none => failAt (.unsupportedCharacter name) start
  | _ => .ok s

/-- A code point in a token-like lexeme: a terminator completes it and begins
what comes next, anything else continues it as `longer`. -/
def extend (m longer : Mode) (s : Stack) (p : Position) (c : CodePoint) :
    Except ReadFailure (Mode × Stack) :=
  if c.isTerminator then
    match complete s p m with
    | .ok s => begin s p c
    | .error e => .error e
  else .ok (longer, s)

/-- The code point behind a `#`. -/
def dispatch (start : Position) (s : Stack) (c : CodePoint) :
    Except ReadFailure (Mode × Stack) :=
  if c = '{' then .ok (.blank, s.push (.collection .set '}' start []))
  else if c = '"' then .ok (.string true start [], s)
  else if c = '_' then .ok (.blank, s.push (.pending none .discardedForm [] start []))
  else if c = '#' then .ok (.symbolic start [], s)
  else if c.isTerminator then failAt .invalidDispatch start
  else .ok (.tag start [c], s)

/-- The code point behind the backslash of an escape. -/
def unescape (pattern : Bool) (start : Position) (read : Text) (place : Position) (c : CodePoint) :
    Except ReadFailure Mode :=
  if pattern then .ok (.string pattern start (c :: '\\' :: read))
  else
    match Scalar.escape? c with
    | some d => .ok (.string pattern start (d :: read))
    | none =>
        if c = 'u' then .ok (.digits start read place [])
        else failAt (.unsupportedEscape c) place

/-- One more digit of an escape; the fourth completes it. -/
def addDigit (start : Position) (read : Text) (place : Position) (digits : Text)
    (c : CodePoint) : Except ReadFailure Mode :=
  let digits := digits ++ [c]
  if digits.length < 4 then .ok (.digits start read place digits)
  else
    match Scalar.fourHex? digits with
    | some d => .ok (.string false start (d :: read))
    | none => failAt (.invalidEscape digits) place

/-- What a code point at `p` does in a mode. -/
def advance (s : Stack) (p : Position) (c : CodePoint) :
    Mode → Except ReadFailure (Mode × Stack)
  | .blank => begin s p c
  | .comment => .ok (if c = '\n' then .blank else .comment, s)
  | .token start read => extend (.token start read) (.token start (c :: read)) s p c
  | .dispatch start => dispatch start s c
  | .tag start read => extend (.tag start read) (.tag start (c :: read)) s p c
  | .symbolic start read => extend (.symbolic start read) (.symbolic start (c :: read)) s p c
  | .backslash start => .ok (.character start [c], s)
  | .character start read => extend (.character start read) (.character start (c :: read)) s p c
  | .string pattern start read =>
      if c = '"' then
        .ok (.blank, s.deliver (scalar (.string read.reverse) start (p.next c)))
      else if c = '\\' then .ok (.escape pattern start read p, s)
      else .ok (.string pattern start (c :: read), s)
  | .escape pattern start read place =>
      (unescape pattern start read place c).map fun mode => (mode, s)
  | .digits start read place digits =>
      (addDigit start read place digits c).map fun mode => (mode, s)

/-- The reader behind one more code point. -/
def step (r : Reader) (c : CodePoint) : Except ReadFailure Reader :=
  match advance r.stack r.position c r.mode with
  | .ok (mode, stack) => .ok ⟨r.position.next c, mode, stack⟩
  | .error e => .error e

/-- The reader behind one more text. -/
def feed (r : Reader) : Text → Except ReadFailure Reader
  | [] => .ok r
  | c :: t =>
      match r.step c with
      | .ok r => r.feed t
      | .error e => .error e

/-- The document, if the text may end here. -/
def finish (r : Reader) : Except ReadFailure Node :=
  match r.mode with
  | .dispatch start => failAt .invalidDispatch start
  | .backslash start => failAt .endWithinCharacter start
  | .string _ start _ => failAt .endWithinString start
  | .escape _ start _ _ => failAt .endWithinString start
  | .digits _ _ place digits => failAt (.invalidEscape digits) place
  | mode =>
      match complete r.stack r.position mode with
      | .ok s =>
          match s.document r.position with
          | .ok n => .ok n
          | .error e => .error (.error e)
      | .error e => .error e

theorem feed_append (r : Reader) (s t : Text) :
    r.feed (s ++ t) = (r.feed s).bind fun r => r.feed t := by
  induction s generalizing r with
  | nil => rfl
  | cons c s ih =>
      simp only [List.cons_append, feed]
      cases r.step c with
      | error e => rfl
      | ok r => exact ih r

/-- Reading moves the position over exactly the text that was read. -/
theorem feed_position {r r' : Reader} {t : Text} (h : r.feed t = .ok r') :
    r'.position = r.position.after t := by
  induction t generalizing r with
  | nil => cases h; rfl
  | cons c t ih =>
      simp only [feed] at h
      cases hs : r.step c with
      | error e => simp [hs] at h
      | ok r₁ =>
          rw [hs] at h
          have hp : r₁.position = r.position.next c := by
            unfold step at hs
            split at hs
            · cases hs; rfl
            · cases hs
          rw [ih h, hp]
          rfl

end Reader

/-- The tree of a document. -/
def parse (t : Text) : Except ReadFailure Node :=
  match Reader.initial.feed t with
  | .ok r => r.finish
  | .error e => .error e

/-- The datum that the first form of a document says; nil without one. -/
def readDatum (t : Text) : Except ReadFailure Datum :=
  (parse t).map Node.toDatum

end EdnLint
