import GameArchive.Text.Utf8

/-!
# UTF-16

Pairs of bytes form units, in either byte order, and a pair of surrogate units forms one
character.  A lone surrogate and a last byte without partner are malformed; each gives one
replacement character, and a high surrogate that only such a byte follows gives one with it.
-/

namespace GameArchive
namespace Utf16

inductive ByteOrder where
  | littleEndian
  | bigEndian
  deriving Repr, DecidableEq

def ByteOrder.unit : ByteOrder → UInt8 → UInt8 → Nat
  | .littleEndian, first, second => first.toNat + 256 * second.toNat
  | .bigEndian, first, second => 256 * first.toNat + second.toNat

def isHighSurrogate (unit : Nat) : Bool :=
  0xD800 ≤ unit && unit < 0xDC00

def isLowSurrogate (unit : Nat) : Bool :=
  0xDC00 ≤ unit && unit < 0xE000

/-- The character that a high and a low surrogate write. -/
def pair (high low : Nat) : Char :=
  Char.ofNat (0x10000 + (high - 0xD800) * 0x400 + (low - 0xDC00))

/-- The characters of a byte string.  `pending` is a high surrogate that waits for its partner. -/
def decodeCharacters (order : ByteOrder) : (pending : Option Nat) → Bytes → List Char
  | none, [] => []
  | some _, [] => [Utf8.replacement]
  | _, [_] => [Utf8.replacement]
  | pending, first :: second :: rest =>
      let unit := order.unit first second
      match pending with
      | some high =>
          if isLowSurrogate unit then
            pair high unit :: decodeCharacters order none rest
          else if isHighSurrogate unit then
            Utf8.replacement :: decodeCharacters order (some unit) rest
          else
            Utf8.replacement :: Char.ofNat unit :: decodeCharacters order none rest
      | none =>
          if isHighSurrogate unit then
            decodeCharacters order (some unit) rest
          else if isLowSurrogate unit then
            Utf8.replacement :: decodeCharacters order none rest
          else
            Char.ofNat unit :: decodeCharacters order none rest

/-- The text of a byte string, with replacement characters for its malformed parts. -/
def decodeReplacing (order : ByteOrder) (bytes : Bytes) : String :=
  String.ofList (decodeCharacters order none bytes)

end Utf16
end GameArchive
