import GameArchive.Bytes

/-!
# UTF-8

A character is written by its lead byte and up to three tail bytes.  `nextCharacter` reads one
character or says how many leading bytes can belong to no character: the longest run of bytes
that begins like a character and breaks off, and a single byte when nothing begins like one.

Two readers rest on it.  `decodeReplacing` puts the replacement character in the place of every
malformed run, and `decode` refuses the text and tells where the first malformed run stands.
-/

namespace GameArchive
namespace Utf8

def encode (text : String) : Bytes :=
  text.toList.flatMap String.utf8EncodeChar

/-- What stands at the head of a byte string. -/
inductive Head where
  /-- A character written with `width` bytes. -/
  | character (value : Char) (width : Nat)
  /-- `width` bytes that belong to no character, whatever follows them. -/
  | malformed (width : Nat)
  /-- The text ends after `width` bytes inside a character that is valid so far. -/
  | unfinished (width : Nat)
  deriving Repr, DecidableEq

/-- The number of tail bytes after a lead byte, with the range of the first tail byte; the ranges
rule out overlong forms, surrogates and numbers beyond the last character. -/
def leadClass (lead : UInt8) : Option (Nat × UInt8 × UInt8) :=
  if 0xC2 ≤ lead ∧ lead ≤ 0xDF then some (1, 0x80, 0xBF)
  else if lead = 0xE0 then some (2, 0xA0, 0xBF)
  else if lead = 0xED then some (2, 0x80, 0x9F)
  else if 0xE1 ≤ lead ∧ lead ≤ 0xEF then some (2, 0x80, 0xBF)
  else if lead = 0xF0 then some (3, 0x90, 0xBF)
  else if 0xF1 ≤ lead ∧ lead ≤ 0xF3 then some (3, 0x80, 0xBF)
  else if lead = 0xF4 then some (3, 0x80, 0x8F)
  else none

def tailBits (tail : UInt8) : Nat :=
  tail.toNat % 64

/-- Reads the remaining tail bytes.  `low` and `high` bound the next tail byte, `value` holds the
bits read so far and `width` the bytes read so far. -/
def readTails : (count : Nat) → (low high : UInt8) → (value width : Nat) → Bytes → Head
  | 0, _, _, value, width, _ => .character (Char.ofNat value) width
  | _ + 1, _, _, _, width, [] => .unfinished width
  | count + 1, low, high, value, width, tail :: rest =>
      if low ≤ tail ∧ tail ≤ high then
        readTails count 0x80 0xBF (value * 64 + tailBits tail) (width + 1) rest
      else
        .malformed width

/-- The payload bits of a lead byte that `count` tail bytes follow. -/
def leadBits (lead : UInt8) (count : Nat) : Nat :=
  lead.toNat % (1 <<< (6 - count))

/-- What stands at the head of `lead :: rest`. -/
def nextCharacter (lead : UInt8) (rest : Bytes) : Head :=
  if lead < 0x80 then
    .character (Char.ofNat lead.toNat) 1
  else
    match leadClass lead with
    | none => .malformed 1
    | some (count, low, high) => readTails count low high (leadBits lead count) 1 rest

/-- The character that stands for a malformed part. -/
def replacement : Char := '\uFFFD'

/-- Decodes all bytes, with one replacement character for every malformed run.  `skip` counts
the bytes of the current run that are still to be passed over. -/
def decodeCharacters : (skip : Nat) → Bytes → List Char
  | _, [] => []
  | skip + 1, _ :: rest => decodeCharacters skip rest
  | 0, lead :: rest =>
      match nextCharacter lead rest with
      | .character value width => value :: decodeCharacters (width - 1) rest
      | .malformed width => replacement :: decodeCharacters (width - 1) rest
      | .unfinished _ => [replacement]

/-- The text of a byte string, with one replacement character for every malformed run. -/
def decodeReplacing (bytes : Bytes) : String :=
  String.ofList (decodeCharacters 0 bytes)

/-- Why a byte string is not UTF-8. -/
inductive Fault where
  /-- `width` bytes from index `start` on belong to no character. -/
  | malformed (width start : Nat)
  /-- The text ends inside a character that begins at index `start`. -/
  | unfinished (start : Nat)
  deriving Repr, DecidableEq

def Fault.message : Fault → String
  | .malformed width start =>
      s!"invalid utf-8 sequence of {width} bytes from index {start}"
  | .unfinished start =>
      s!"incomplete utf-8 byte sequence from index {start}"

/-- Decodes the bytes from index `position` on or finds the first fault. -/
def decodeChecked : (skip position : Nat) → Bytes → Except Fault (List Char)
  | _, _, [] => .ok []
  | skip + 1, position, _ :: rest => decodeChecked skip (position + 1) rest
  | 0, position, lead :: rest =>
      match nextCharacter lead rest with
      | .character value width =>
          (decodeChecked (width - 1) (position + 1) rest).map (value :: ·)
      | .malformed width => .error (.malformed width position)
      | .unfinished _ => .error (.unfinished position)

/-- The text of a byte string, when it is UTF-8. -/
def decode (bytes : Bytes) : Except Fault String :=
  (decodeChecked 0 0 bytes).map String.ofList

end Utf8
end GameArchive
