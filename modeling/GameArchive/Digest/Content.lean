import GameArchive.Digest.XxHash64

/-!
# Content hashes

A file is identified by the base64 text of the eight bytes of its 64-bit xxHash, least
significant byte first.
-/

namespace GameArchive

namespace Base64

def digit (value : Nat) : Char :=
  if value < 26 then Char.ofNat ('A'.toNat + value)
  else if value < 52 then Char.ofNat ('a'.toNat + (value - 26))
  else if value < 62 then Char.ofNat ('0'.toNat + (value - 52))
  else if value = 62 then '+'
  else '/'

/-- The digits of a byte string, four for every three bytes, padded with equals signs. -/
def digits : Bytes → List Char
  | [] => []
  | [first] =>
      [digit (first.toNat / 4), digit (first.toNat % 4 * 16), '=', '=']
  | [first, second] =>
      [digit (first.toNat / 4), digit (first.toNat % 4 * 16 + second.toNat / 16),
        digit (second.toNat % 16 * 4), '=']
  | first :: second :: third :: rest =>
      [digit (first.toNat / 4), digit (first.toNat % 4 * 16 + second.toNat / 16),
        digit (second.toNat % 16 * 4 + third.toNat / 64), digit (third.toNat % 64)] ++ digits rest

def encode (bytes : Bytes) : String :=
  String.ofList (digits bytes)

end Base64

/-- What identifies the contents of a file. -/
structure ContentHash where
  hash : String
  size : Nat
  deriving Repr, DecidableEq

namespace ContentHash

def text (bytes : Bytes) : String :=
  Base64.encode (Bytes.ofWord64 (XxHash64.digest bytes))

def ofBytes (bytes : Bytes) : ContentHash where
  hash := text bytes
  size := bytes.length

end ContentHash
end GameArchive
