import EdnLint.Fault
import EdnLint.Files.Path
import EdnLint.Text.Utf8
import EdnLint.Uri.Host

/-!
# Resource identifiers

A client names documents by URI. `Uri.path` takes one apart and decodes its path;
`Uri.root?` only drops `file://`. `Uri.ofPath` writes the URI of a file, in which
everything but letters, digits, `_.-~` and the stroke is percent-encoded.
-/

namespace EdnLint

namespace Uri

/-- The code points that a scheme is made of. -/
def isSchemeChar (c : CodePoint) : Bool :=
  c.isAsciiLetter || c.isAsciiDigit || c = '+' || c = '-' || c = '.'

/-- The scheme in small letters and what follows its colon; without a scheme, none
and the whole. -/
def splitScheme (t : Text) : Option Text × Text :=
  match Text.splitFirst? ':' t with
  | some (scheme, rest) =>
      let starts := (scheme.head?.map CodePoint.isAsciiLetter).getD false
      if starts && scheme.all isSchemeChar then (some (scheme.map CodePoint.asciiLower), rest)
      else (none, t)
  | none => (none, t)

/-- What ends an authority. -/
def endsAuthority (c : CodePoint) : Bool := c = '/' || c = '?' || c = '#'

/-- The authority behind two strokes and what follows it. -/
def splitAuthority (t : Text) : Text × Text :=
  match t with
  | a :: b :: u =>
      if a = '/' && b = '/' then
        (u.takeWhile fun c => !endsAuthority c, u.dropWhile fun c => !endsAuthority c)
      else ([], t)
  | _ => ([], t)

/-- The code points that normalisation turns into a delimiter. -/
def delimiterLikes : List Nat :=
  [0x2047, 0x2048, 0x2049, 0x2100, 0x2101, 0x2105, 0x2106, 0x2A74, 0xFE13, 0xFE16, 0xFE55, 0xFE56,
   0xFE5F, 0xFE6B, 0xFF03, 0xFF0F, 0xFF1A, 0xFF1F, 0xFF20]

/-- What stands behind the first opening square bracket, up to a closing one. -/
def bracketed? (t : Text) : Option Text :=
  (Text.splitFirst? '[' t).map fun (_, rest) => rest.takeWhile (· != CodePoint.ofChar ']')

/-- An authority has both square brackets, with a host in them, or neither, and nothing
that turns into a delimiter. -/
def isAuthority (t : Text) : Bool :=
  (t.contains (CodePoint.ofChar '[') == t.contains (CodePoint.ofChar ']')) &&
    (bracketed? t).all isHost && t.all fun c => !delimiterLikes.contains c.val

/-- The schemes whose paths may end in parameters; no scheme is one of them. -/
def parameterSchemes : List Text :=
  ["ftp", "hdl", "prospero", "http", "imap", "https", "shttp", "rtsp", "rtsps", "rtspu", "sip",
   "sips", "mms", "sftp", "tel"]

/-- The path without the parameters of its last segment. -/
def dropParameters (t : Text) : Text :=
  match Text.splitLast? '/' t with
  | some (before, last) =>
      before ++ CodePoint.ofChar '/' :: last.takeWhile (· != CodePoint.ofChar ';')
  | none => t.takeWhile (· != CodePoint.ofChar ';')

/-- The bytes of an ASCII text with percent escapes read. -/
def unescapeBytes : Text → List UInt8
  | [] => []
  | [c] => [UInt8.ofNat c.val]
  | [c, d] => [UInt8.ofNat c.val, UInt8.ofNat d.val]
  | c :: d :: e :: t =>
      match d.hexValue?, e.hexValue? with
      | some hi, some lo =>
          if c = '%' then UInt8.ofNat (hi * 16 + lo) :: unescapeBytes t
          else UInt8.ofNat c.val :: unescapeBytes (d :: e :: t)
      | _, _ => UInt8.ofNat c.val :: unescapeBytes (d :: e :: t)

/-- A text with its percent escapes read. Each run of ASCII is decoded by itself;
`run` holds the one that has begun, last first. -/
def unescapeFrom (run : Text) : Text → Text
  | [] => Utf8.decodeLossy (unescapeBytes run.reverse)
  | c :: t =>
      if c.val < 128 then unescapeFrom (c :: run) t
      else Utf8.decodeLossy (unescapeBytes run.reverse) ++ c :: unescapeFrom [] t

/-- A text with its percent escapes read. -/
def unescape (t : Text) : Text := unescapeFrom [] t

/-- The code points that a URI is read without. -/
def isIgnored (c : CodePoint) : Bool := c = '\t' || c = '\r' || c = '\n'

/-- The code points that may stand in front of a URI: controls and the space. -/
def isLeading (c : CodePoint) : Bool := c.val ≤ 32

/-- What a URI is read as. -/
def trim (uri : Text) : Text := (uri.dropWhile isLeading).filter fun c => !isIgnored c

/-- The decoded path of a URI. Controls and spaces in front are no part of it, nor are
tabs and line ends. -/
def path (uri : Text) : Except Fault Text :=
  let (scheme, rest) := splitScheme (trim uri)
  let (authority, rest) := splitAuthority rest
  if isAuthority authority then
    let path := (rest.takeWhile (· != CodePoint.ofChar '#')).takeWhile (· != CodePoint.ofChar '?')
    let hasParameters := match scheme with
      | some scheme => parameterSchemes.contains scheme
      | none => true
    .ok (unescape (if hasParameters then dropParameters path else path))
  else .error .malformedUri

/-- The directory that a root URI names: what follows `file://`, or the text itself.
The empty text names none. -/
def root? (uri : Text) : Option Text :=
  if uri.isEmpty then none
  else if ("file://" : Text).isPrefixOf uri then some (uri.drop 7)
  else some uri

/-- The code points that a file URI shows as they are. -/
def isUnreserved (c : CodePoint) : Bool :=
  c.isAsciiLetter || c.isAsciiDigit || c = '_' || c = '.' || c = '-' || c = '~' || c = '/'

/-- A byte as a percent escape, with capital digits. -/
def escapeByte (b : UInt8) : Text :=
  let digit (n : Nat) : CodePoint := CodePoint.ofChar (Nat.digitChar n).toUpper
  [CodePoint.ofChar '%', digit (b.toNat / 16), digit (b.toNat % 16)]

/-- A text with all but the unreserved code points percent-encoded. -/
def escape (t : Text) : Text :=
  t.flatMap fun c => if isUnreserved c then [c] else (Utf8.encodeOne c).flatMap escapeByte

/-- The URI of an absolute path. -/
def ofPath (p : Path) : Text := ("file://" : Text) ++ escape p.text

end Uri

end EdnLint
