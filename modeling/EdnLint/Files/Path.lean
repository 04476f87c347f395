import EdnLint.Fault
import EdnLint.Text.Quoted
import EdnLint.Text.Utf8

/-!
# Paths

A path is a list of names from a root or from the working directory. Reading one
drops empty names and single dots; two dots stay, since what they lead to depends
on the files. Exactly two strokes in front are a root of their own.
-/

namespace EdnLint

/-- What a path starts from. -/
inductive PathRoot where
  | relative
  | single
  | double
  deriving DecidableEq, Repr

/-- A path. -/
structure Path where
  root : PathRoot
  names : List Text
  deriving DecidableEq, Repr

namespace Path

/-- The root in front of a text, and the rest. -/
def splitRoot (t : Text) : PathRoot × Text :=
  let strokes := (t.takeWhile (· = CodePoint.ofChar '/')).length
  let rest := t.drop strokes
  if strokes = 0 then (.relative, rest)
  else if strokes = 2 then (.double, rest)
  else (.single, rest)

/-- The path that a text writes. -/
def ofText (t : Text) : Path :=
  let (root, rest) := splitRoot t
  ⟨root, (Text.splitOn '/' rest).filter fun name => !name.isEmpty && name != (".": Text)⟩

/-- What stands in front of the names. -/
def rootText : PathRoot → Text
  | .relative => []
  | .single => "/"
  | .double => "//"

/-- The text of a path; the working directory itself is a dot. -/
def text (p : Path) : Text :=
  match p.root, p.names with
  | .relative, [] => "."
  | root, names => rootText root ++ Text.join "/" names

/-- The path `q` seen from `p`. -/
def join (p q : Path) : Path :=
  match q.root with
  | .relative => ⟨p.root, p.names ++ q.names⟩
  | _ => q

/-- The path of a name below a path. -/
def child (p : Path) (name : Text) : Path := ⟨p.root, p.names ++ [name]⟩

/-- A path sorts by its names, the root being the first of them. -/
def sortKey (p : Path) : List Text :=
  match p.root with
  | .relative => p.names
  | root => rootText root :: p.names

/-- The order of sort keys. -/
def keyLe : List Text → List Text → Bool
  | [], _ => true
  | _ :: _, [] => false
  | a :: s, b :: t => if a = b then keyLe s t else Text.le a b

/-- The order of paths. -/
def le (p q : Path) : Bool := keyLe p.sortKey q.sortKey

/-- The names with every `..` undone by the name before it; `back` holds the names
so far, last first. -/
def foldDots (back : List Text) : List Text → List Text
  | [] => back.reverse
  | name :: names =>
      if name = (".." : Text) then foldDots back.tail names else foldDots (name :: back) names

/-- The absolute path without dots, seen from the working directory `cwd`. -/
def resolve (cwd p : Path) : Path := ⟨.single, foldDots [] (cwd.join p).names⟩

/-- Whether a code point has no bytes in a file name. The surrogates from U+DC80 to
U+DCFF stand for the bytes that are no text. -/
def isUnencodable (c : CodePoint) : Bool := c.isSurrogate && !c.within 0xDC80 0xDCFF

/-- Why the system is not even asked about a text: it has no bytes for it, or the null
character would end it. -/
def textFault? (t : Text) : Option Fault :=
  if t.any isUnencodable then some .unencodable
  else if t.any fun c => c.val == 0 then some .nullInPath
  else none

/-- Why a path is refused as a whole. -/
def refusal? (p : Path) : Option Fault := textFault? p.text

/-- Why a path is refused by the one who goes along its names: the first name that is
refused decides. -/
def fault? (p : Path) : Option Fault := p.names.findSome? textFault?

/-- How many bytes a text takes in a file name. A surrogate stands for one byte. -/
def size : Text → Nat
  | [] => 0
  | c :: t => (if c.isSurrogate then 1 else (Utf8.encodeOne c).length) + size t

/-- How many bytes a name can have. -/
def maxNameSize : Nat := 255

/-- How many bytes a path can have, with a null byte behind it. -/
def maxSize : Nat := 4096

/-- Whether a path has too many bytes to be looked up at all. -/
def isLong (p : Path) : Bool := maxSize ≤ size p.text

end Path

end EdnLint
