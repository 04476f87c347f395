import EdnLint.Text.Basic

/-!
# UTF-8

`decodeUnits` takes a sequence of bytes apart into code points and faulty pieces.
A faulty piece is as long as it could still have become a code point, so that
each one can be replaced by a single mark. Decoding strictly refuses faulty
pieces, decoding leniently puts U+FFFD in their place.
-/

namespace EdnLint

namespace Utf8

/-- A byte that continues a code point. -/
def isTail (b : UInt8) : Bool := 0x80 ≤ b && b ≤ 0xBF

/-- What a first byte of several announces: how many bytes follow, the range of
the second byte, and the bits it contributes. -/
def lead? (b : UInt8) : Option (Nat × UInt8 × UInt8 × Nat) :=
  if 0xC2 ≤ b && b ≤ 0xDF then some (1, 0x80, 0xBF, b.toNat - 0xC0)
  else if b = 0xE0 then some (2, 0xA0, 0xBF, 0)
  else if b = 0xED then some (2, 0x80, 0x9F, 13)
  else if 0xE1 ≤ b && b ≤ 0xEF then some (2, 0x80, 0xBF, b.toNat - 0xE0)
  else if b = 0xF0 then some (3, 0x90, 0xBF, 0)
  else if 0xF1 ≤ b && b ≤ 0xF3 then some (3, 0x80, 0xBF, b.toNat - 0xF0)
  else if b = 0xF4 then some (3, 0x80, 0x8F, 4)
  else none

/-- The bits of a byte that continues a code point, behind those before. -/
def append (bits : Nat) (b : UInt8) : Nat := bits * 64 + (b.toNat - 0x80)

/-- The code points of a sequence of bytes, with none for each faulty piece. -/
def decodeUnits : List UInt8 → List (Option CodePoint)
  | [] => []
  | a :: t =>
      if a < 0x80 then CodePoint.ofNat? a.toNat :: decodeUnits t
      else
        match lead? a with
        | none => none :: decodeUnits t
        | some (count, lo, hi, bits) =>
            match t with
            | [] => [none]
            | b :: u =>
                if b < lo || hi < b then none :: decodeUnits (b :: u)
                else if count = 1 then CodePoint.ofNat? (append bits b) :: decodeUnits u
                else
                  match u with
                  | [] => [none]
                  | c :: v =>
                      if !isTail c then none :: decodeUnits (c :: v)
                      else if count = 2 then
                        CodePoint.ofNat? (append (append bits b) c) :: decodeUnits v
                      else
                        match v with
                        | [] => [none]
                        | d :: w =>
                            if !isTail d then none :: decodeUnits (d :: w)
                            else
                              CodePoint.ofNat? (append (append (append bits b) c) d)
                                :: decodeUnits w

/-- The text of a sequence of bytes, if all of it is UTF-8. -/
def decode? (bytes : List UInt8) : Option Text := (decodeUnits bytes).mapM id

/-- The text of a sequence of bytes, with U+FFFD for each faulty piece. -/
def decodeLossy (bytes : List UInt8) : Text :=
  (decodeUnits bytes).map fun c => c.getD (CodePoint.ofChar '\uFFFD')

/-- The bytes of a code point. -/
def encodeOne (c : CodePoint) : List UInt8 :=
  let n := c.val
  let tail (shift : Nat) : UInt8 := UInt8.ofNat (0x80 + n / shift % 64)
  if n < 0x80 then [UInt8.ofNat n]
  else if n < 0x800 then [UInt8.ofNat (0xC0 + n / 64), tail 1]
  else if n < 0x10000 then [UInt8.ofNat (0xE0 + n / 4096), tail 64, tail 1]
  else [UInt8.ofNat (0xF0 + n / 262144), tail 4096, tail 64, tail 1]

/-- The bytes of a text. -/
def encode (t : Text) : List UInt8 := t.flatMap encodeOne

end Utf8

end EdnLint
