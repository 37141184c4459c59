import GameArchive.Path
import GameArchive.Text.Utf8

/-!
# Name hashes of the TES4 family

Folder and file records are found by 64-bit hashes of their names.  The low half holds the first
and the last characters, the length and a mark for four common extensions; the high half adds up
two rolling hashes, one of the characters in between and one of the extension.
-/

namespace GameArchive
namespace Tes4

/-- A rolling hash modulo `2 ^ 32`. -/
def rollingHash (bytes : Bytes) : UInt32 :=
  bytes.foldl (fun hash byte => hash * 0x1003F + byte.toUInt32) 0

/-- The mark of an extension, which is given with its full stop. -/
def extensionMark (extension : Bytes) : UInt32 :=
  if extension = Utf8.encode ".kf" then 0x80
  else if extension = Utf8.encode ".nif" then 0x8000
  else if extension = Utf8.encode ".dds" then 0x8080
  else if extension = Utf8.encode ".wav" then 0x80000000
  else 0

def lowHash (stem extension : Bytes) : UInt32 :=
  let length := stem.length
  let last := (stem.getD (length - 1) 0).toUInt32
  let secondLast := if 3 ≤ length then (stem.getD (length - 2) 0).toUInt32 else 0
  let first := (stem.getD 0 0).toUInt32
  (last ||| (secondLast <<< 8) ||| ((UInt32.ofNat length &&& 0xFF) <<< 16) ||| (first <<< 24)) |||
    extensionMark extension

def highHash (stem extension : Bytes) : UInt32 :=
  let middle :=
    if 3 < stem.length then rollingHash ((stem.drop 1).take (stem.length - 3)) else 0
  middle + rollingHash extension

def hashParts (stem extension : Bytes) : UInt64 :=
  if stem.isEmpty then 0
  else ((highHash stem extension).toUInt64 <<< 32) ||| (lowHash stem extension).toUInt64

def hashedBytes (name : String) : Bytes :=
  Utf8.encode (String.ofList (Path.replace '/' '\\' (Lowercase.characters name.toList)))

/-- The bytes before and from the last full stop. -/
def splitAtStop : Bytes → Bytes × Bytes
  | [] => ([], [])
  | byte :: rest =>
      let (stem, extension) := splitAtStop rest
      if extension.isEmpty && byte == 0x2E then ([], byte :: rest)
      else (byte :: stem, extension)

def folderHash (folder : String) : UInt64 :=
  hashParts (hashedBytes folder) []

def fileHash (name : String) : UInt64 :=
  let (stem, extension) := splitAtStop (hashedBytes name)
  hashParts stem extension

end Tes4
end GameArchive
