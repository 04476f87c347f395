import EdnLint.Text.Basic

/-!
# Digits

Decimal digits come in runs of ten consecutive code points, zero first, so the
table lists only the zeros. The further digits (superscripts, circled digits and
their like) are digits by name but have no place in a decimal number.
-/

namespace EdnLint

namespace CodePoint

/-- The zero of every run of ten decimal digits. -/
def decimalZeros : List Nat :=
  [48, 0x660, 0x6F0, 0x7C0, 0x966, 0x9E6, 0xA66, 0xAE6, 0xB66, 0xBE6, 0xC66, 0xCE6, 0xD66,
   0xDE6, 0xE50, 0xED0, 0xF20, 0x1040, 0x1090, 0x17E0, 0x1810, 0x1946, 0x19D0, 0x1A80, 0x1A90,
   0x1B50, 0x1BB0, 0x1C40, 0x1C50, 0xA620, 0xA8D0, 0xA900, 0xA9D0, 0xA9F0, 0xAA50, 0xABF0,
   0xFF10, 0x104A0, 0x10D30, 0x11066, 0x110F0, 0x11136, 0x111D0, 0x112F0, 0x11450, 0x114D0,
   0x11650, 0x116C0, 0x11730, 0x118E0, 0x11950, 0x11C50, 0x11D50, 0x11DA0, 0x16A60, 0x16AC0,
   0x16B50, 0x1D7CE, 0x1D7D8, 0x1D7E2, 0x1D7EC, 0x1D7F6, 0x1E140, 0x1E2F0, 0x1E950, 0x1FBF0]

/-- The ranges of digits that are not decimal digits. -/
def furtherDigits : List (Nat × Nat) :=
  [(178,179), (185,185), (0x1369,0x1371), (0x19DA,0x19DA), (0x2070,0x2070), (0x2074,0x2079),
   (0x2080,0x2089), (0x2460,0x2468), (0x2474,0x247C), (0x2488,0x2490), (0x24EA,0x24EA),
   (0x24F5,0x24FD), (0x24FF,0x24FF), (0x2776,0x277E), (0x2780,0x2788), (0x278A,0x2792),
   (0x10A40,0x10A43), (0x10E60,0x10E68), (0x11052,0x1105A), (0x1F100,0x1F10A)]

/-- The value of a decimal digit of any script. -/
def digitValue? (c : CodePoint) : Option Nat :=
  if c.val < 128 then
    if c.isAsciiDigit then some (c.val - 48) else none
  else
    (decimalZeros.find? fun z => z ≤ c.val && c.val < z + 10).map fun z => c.val - z

/-- Whether the code point is a decimal digit of some script. -/
def isDecimal (c : CodePoint) : Bool :=
  c.digitValue?.isSome

/-- Whether the code point is a digit, decimal or not. -/
def isDigit (c : CodePoint) : Bool :=
  c.isDecimal || furtherDigits.any fun (lo, hi) => c.within lo hi

end CodePoint

end EdnLint
