import GameArchive.Bytes

/-!
# Hexadecimal text

Lower-case hexadecimal digits, most significant first.  A number has at least one and is padded
with zeros to a given width, and a byte string has two for each of its bytes.
-/

namespace GameArchive
namespace Hexadecimal

/-- The digits of a number, without leading zeros. -/
def digits (value : Nat) : List Char :=
  Nat.toDigits 16 value

def render (value : Nat) : String :=
  String.ofList (digits value)

/-- The digits of a number after as many zeros as reach `width` characters. -/
def renderPadded (width value : Nat) : String :=
  let written := digits value
  String.ofList (List.replicate (width - written.length) '0' ++ written)

def ofBytes (bytes : Bytes) : String :=
  String.ofList (bytes.flatMap fun byte =>
    [Nat.digitChar (byte.toNat / 16), Nat.digitChar (byte.toNat % 16)])

def digitValue (digit : Char) : Nat :=
  digit.toNat - (if digit ≤ '9' then 48 else if digit ≤ 'F' then 55 else 87)

/-- The bytes whose digits are given in pairs. -/
def toBytes : List Char → Bytes
  | high :: low :: rest => UInt8.ofNat (16 * digitValue high + digitValue low) :: toBytes rest
  | _ => []

end Hexadecimal
end GameArchive
