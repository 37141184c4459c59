import GameArchive.Bytes

/-!
# The Windows-1252 code page

Every byte stands for one character: the bytes from `0x80` to `0x9F` for those of a table, all
others for the character of the same number.  The five bytes that the code page leaves
unassigned stand for the control characters of their own number, so decoding is injective.

A character outside the code page is written as a decimal character reference.
-/

namespace GameArchive
namespace Windows1252

/-- The characters of the bytes `0x80` to `0x9F`. -/
def upperControls : List Nat := [
  0x20AC, 0x0081, 0x201A, 0x0192, 0x201E, 0x2026, 0x2020, 0x2021,
  0x02C6, 0x2030, 0x0160, 0x2039, 0x0152, 0x008D, 0x017D, 0x008F,
  0x0090, 0x2018, 0x2019, 0x201C, 0x201D, 0x2022, 0x2013, 0x2014,
  0x02DC, 0x2122, 0x0161, 0x203A, 0x0153, 0x009D, 0x017E, 0x0178]

def characterNumber (byte : UInt8) : Nat :=
  if 0x80 ≤ byte ∧ byte < 0xA0 then
    upperControls.getD (byte.toNat - 0x80) 0
  else
    byte.toNat

def decodeByte (byte : UInt8) : Char :=
  Char.ofNat (characterNumber byte)

def byteOf? (character : Char) : Option UInt8 :=
  let number := character.toNat
  if number < 0x80 ∨ (0xA0 ≤ number ∧ number < 0x100) then
    some (UInt8.ofNat number)
  else
    (upperControls.findIdx? (· == number)).map fun index => UInt8.ofNat (0x80 + index)

def reference (character : Char) : Bytes :=
  ("&#".toList ++ (Nat.repr character.toNat).toList ++ [';']).flatMap String.utf8EncodeChar

def encodeCharacter (character : Char) : Bytes :=
  match byteOf? character with
  | some byte => [byte]
  | none => reference character

def decode (bytes : Bytes) : String :=
  String.ofList (bytes.map decodeByte)

def encode (text : String) : Bytes :=
  text.toList.flatMap encodeCharacter

end Windows1252
end GameArchive
