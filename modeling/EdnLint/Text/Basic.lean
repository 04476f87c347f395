/-!
# Texts

A text is the list of its code points. Lengths, columns and offsets count list
entries, so nothing here depends on how a text is stored as bytes. Surrogates
are code points like any other: an escape may write one alone, and two of them
never join.

The few operations on texts that the rest of the library needs and that core
does not have for lists are defined here: the comparison by code point,
splitting at a separator, and the search for an infix.
-/

namespace EdnLint

/-- A Unicode code point, surrogates included. -/
structure CodePoint where
  val : Nat
  isLt : val < 0x110000
  deriving DecidableEq, Repr

namespace CodePoint

instance : Inhabited CodePoint := ⟨⟨0, by decide⟩⟩

/-- The code point of a character. -/
def ofChar (c : Char) : CodePoint :=
  ⟨c.toNat, by
    have h : c.val.toNat < 0x110000 := by
      rcases c.valid with h | h
      · exact Nat.lt_trans h (by decide)
      · exact h.2
    exact h⟩

instance : Coe Char CodePoint := ⟨ofChar⟩

/-- The code point with number `n`, if there is one. -/
def ofNat? (n : Nat) : Option CodePoint :=
  if h : n < 0x110000 then some ⟨n, h⟩ else none

/-- Whether the code point lies in the inclusive range from `lo` to `hi`. -/
def within (c : CodePoint) (lo hi : Nat) : Bool :=
  lo ≤ c.val && c.val ≤ hi

/-- The letters `A` to `Z` and `a` to `z`. -/
def isAsciiLetter (c : CodePoint) : Bool :=
  c.within 65 90 || c.within 97 122

/-- The digits `0` to `9`. -/
def isAsciiDigit (c : CodePoint) : Bool :=
  c.within 48 57

/-- The value of `0`–`9`, `a`–`f` or `A`–`F` as a hexadecimal digit. -/
def hexValue? (c : CodePoint) : Option Nat :=
  if c.within 48 57 then some (c.val - 48)
  else if c.within 97 102 then some (c.val - 87)
  else if c.within 65 70 then some (c.val - 55)
  else none

/-- The small letter of an ASCII capital; every other code point is unchanged. -/
def asciiLower (c : CodePoint) : CodePoint :=
  if h : 65 ≤ c.val ∧ c.val ≤ 90 then ⟨c.val + 32, by omega⟩ else c

/-- A code point that stands for no character by itself. -/
def isSurrogate (c : CodePoint) : Bool :=
  c.within 0xD800 0xDFFF

/-- The character of a code point; a surrogate has none and gives U+FFFD. -/
def toChar (c : CodePoint) : Char :=
  if h : c.val.isValidChar then Char.ofNatAux c.val h else Char.ofNat 0xFFFD

end CodePoint

/-- A sequence of code points. -/
abbrev Text := List CodePoint

namespace Text

/-- The text of a string. -/
def ofString (s : String) : Text :=
  s.toList.map CodePoint.ofChar

instance : Coe String Text := ⟨ofString⟩

/-- The string of a text, with U+FFFD for each surrogate. -/
def toString (t : Text) : String :=
  String.ofList (t.map CodePoint.toChar)

/-- A number in decimal digits. -/
def ofNat (n : Nat) : Text :=
  (Nat.toDigits 10 n).map CodePoint.ofChar

/-- An integer in decimal digits, with `-` in front of a negative one. -/
def ofInt : Int → Text
  | .ofNat n => ofNat n
  | .negSucc n => CodePoint.ofChar '-' :: ofNat (n + 1)

/-- A run of zeros. -/
def zeros (n : Nat) : Text :=
  List.replicate n (CodePoint.ofChar '0')

/-- The order by code point; a proper initial part comes first. -/
def le : Text → Text → Bool
  | [], _ => true
  | _ :: _, [] => false
  | a :: s, b :: t => a.val < b.val || (a.val == b.val && le s t)

/-- Whether `part` occurs in the text as consecutive code points. -/
def hasInfix (part : Text) : Text → Bool
  | [] => part.isEmpty
  | c :: t => part.isPrefixOf (c :: t) || hasInfix part t

/-- The pieces between the separators. There is always at least one piece. -/
def splitOn (separator : CodePoint) : Text → List Text
  | [] => [[]]
  | c :: t =>
      match splitOn separator t with
      | [] => [[c]]
      | piece :: pieces =>
          if c = separator then [] :: piece :: pieces else (c :: piece) :: pieces

/-- The pieces joined with a separator between neighbours. -/
def join (separator : Text) : List Text → Text
  | [] => []
  | [piece] => piece
  | piece :: pieces => piece ++ separator ++ join separator pieces

/-- The text before and after the first `separator`, or none without one. -/
def splitFirst? (separator : CodePoint) : Text → Option (Text × Text)
  | [] => none
  | c :: t =>
      if c = separator then some ([], t)
      else (splitFirst? separator t).map fun (before, after) => (c :: before, after)

/-- The text before and after the last `separator`, or none without one. -/
def splitLast? (separator : CodePoint) : Text → Option (Text × Text)
  | [] => none
  | c :: t =>
      match splitLast? separator t with
      | some (before, after) => some (c :: before, after)
      | none => if c = separator then some ([], t) else none

/-- The text without the code points at its two ends that `p` holds of. -/
def trim (p : CodePoint → Bool) (t : Text) : Text :=
  ((t.dropWhile p).reverse.dropWhile p).reverse

theorem splitOn_ne_nil (separator : CodePoint) (t : Text) : splitOn separator t ≠ [] := by
  cases t with
  | nil => simp [splitOn]
  | cons c t =>
      simp only [splitOn]
      split
      · simp
      · split <;> simp

@[simp] theorem join_nil (separator : Text) : join separator [] = [] := rfl

@[simp] theorem join_singleton (separator piece : Text) : join separator [piece] = piece := rfl

/-- Joining with the separator undoes the split. -/
theorem join_splitOn (separator : CodePoint) (t : Text) :
    join [separator] (splitOn separator t) = t := by
  induction t with
  | nil => rfl
  | cons c t ih =>
      cases h : splitOn separator t with
      | nil => exact absurd h (splitOn_ne_nil separator t)
      | cons piece pieces =>
          rw [h] at ih
          by_cases hc : c = separator
          · subst hc
            simp [splitOn, h, join, ih]
          · cases pieces with
            | nil => simpa [splitOn, h, hc, join] using ih
            | cons next rest => simpa [splitOn, h, hc, join] using ih

end Text

end EdnLint
