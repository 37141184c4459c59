import GameArchive.Text.Utf16
import GameArchive.Text.Windows1252

/-!
# Name encodings

Names inside archives are 8-bit code page strings or UTF-8.  Decoding first looks for a byte
order mark, and a mark decides the encoding whatever the archive's version says; encoding never
writes a mark.
-/

namespace GameArchive

/-- How an archive writes its names. -/
inductive Encoding where
  | utf8
  | windows1252
  deriving Repr, DecidableEq

namespace Encoding

/-- The text of a byte string: by its byte order mark if it has one, else by the encoding. -/
def decode (encoding : Encoding) : Bytes → String
  | 0xEF :: 0xBB :: 0xBF :: rest => Utf8.decodeReplacing rest
  | 0xFF :: 0xFE :: rest => Utf16.decodeReplacing .littleEndian rest
  | 0xFE :: 0xFF :: rest => Utf16.decodeReplacing .bigEndian rest
  | bytes =>
      match encoding with
      | .utf8 => Utf8.decodeReplacing bytes
      | .windows1252 => Windows1252.decode bytes

def encode (encoding : Encoding) (text : String) : Bytes :=
  match encoding with
  | .utf8 => Utf8.encode text
  | .windows1252 => Windows1252.encode text

end Encoding
end GameArchive
