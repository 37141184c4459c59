import GameArchive.Error

/-!
# Records of OMOD packages

Numbers are little-endian.  A text is written after its length in bytes, which takes seven bits
to a byte, lowest first, with the eighth bit set on all bytes but the last.  A length has five
bytes at most and is kept in 32 bits.

A package holds its configuration, which tells how its payloads are compressed, and for every
payload a list of the files that it fills.
-/

namespace GameArchive
namespace Omod

def readByte (bytes : Bytes) : Except IoError (UInt8 × Bytes) :=
  match bytes with
  | [] => .error .shortRead
  | byte :: rest => .ok (byte, rest)

def readNumber (width : Nat) (bytes : Bytes) : Except IoError (Nat × Bytes) :=
  match LittleEndian.read? width bytes with
  | none => .error .shortRead
  | some field => .ok field

/-- The number that is written as `value` in two's complement of `width` bytes. -/
def signed (width value : Nat) : Int :=
  if 2 * value < LittleEndian.bound width then value else (value : Int) - LittleEndian.bound width

/-- The greatest shift of a byte of a length. -/
def maximumShift : Nat := 28

/-- Reads a length whose next byte is shifted by `shift`; `length` holds what was read before. -/
def readLengthFrom : (shift : Nat) → (length : UInt32) → Bytes → Except IoError (Nat × Bytes)
  | _, _, [] => .error .shortRead
  | shift, length, byte :: rest =>
      let length := length ||| ((byte &&& 0x7F).toUInt32 <<< UInt32.ofNat shift)
      if byte &&& 0x80 = 0 then .ok (length.toNat, rest)
      else if maximumShift < shift + 7 then .error .longStringLength
      else readLengthFrom (shift + 7) length rest

def readText (bytes : Bytes) : Except IoError (String × Bytes) := do
  let (length, bytes) ← readLengthFrom 0 0 bytes
  match bytes.split? length with
  | none => .error .shortRead
  | some (text, rest) =>
      match Utf8.decode text with
      | .ok text => .ok (text, rest)
      | .error fault => .error (.malformedText fault)

inductive PayloadCompression where
  | lzma
  | zip
  deriving Repr, DecidableEq

inductive Creation where
  /-- A time stamp, in files of version 2 and later. -/
  | time (stamp : Int)
  /-- A date in free form, in older files. -/
  | date (text : String)
  deriving Repr, DecidableEq

structure Config where
  fileVersion : UInt8
  name : String
  majorVersion : Int
  minorVersion : Int
  author : String
  email : String
  website : String
  description : String
  creation : Creation
  compression : PayloadCompression
  deriving Repr, DecidableEq

def readCreation (fileVersion : UInt8) (bytes : Bytes) : Except IoError (Creation × Bytes) :=
  if 2 ≤ fileVersion then do
    let (stamp, bytes) ← readNumber 8 bytes
    pure (.time (signed 8 stamp), bytes)
  else do
    let (text, bytes) ← readText bytes
    pure (.date text, bytes)

def readCompression (bytes : Bytes) : Except IoError (PayloadCompression × Bytes) := do
  let (number, bytes) ← readByte bytes
  if number = 0 then pure (.lzma, bytes)
  else if number = 1 then pure (.zip, bytes)
  else .error (.unknownCompression number.toNat)

def Config.read (bytes : Bytes) : Except IoError (Config × Bytes) := do
  let (fileVersion, bytes) ← readByte bytes
  let (name, bytes) ← readText bytes
  let (majorVersion, bytes) ← readNumber 4 bytes
  let (minorVersion, bytes) ← readNumber 4 bytes
  let (author, bytes) ← readText bytes
  let (email, bytes) ← readText bytes
  let (website, bytes) ← readText bytes
  let (description, bytes) ← readText bytes
  let (creation, bytes) ← readCreation fileVersion bytes
  let (compression, bytes) ← readCompression bytes
  pure ({
    fileVersion, name
    majorVersion := signed 4 majorVersion
    minorVersion := signed 4 minorVersion
    author, email, website, description, creation, compression }, bytes)

/-- A file that a payload fills. -/
structure ListedFile where
  name : String
  crc : UInt32
  length : Nat
  deriving Repr, DecidableEq

def ListedFile.read (bytes : Bytes) : Except IoError (ListedFile × Bytes) := do
  let (name, bytes) ← readText bytes
  let (crc, bytes) ← readNumber 4 bytes
  let (length, bytes) ← readNumber 8 bytes
  if signed 8 length < 0 then
    .error (.negativeLength name)
  else
    pure (⟨name, UInt32.ofNat crc, length⟩, bytes)

/-- Reads entries up to the end.  An entry takes one byte at least, so as many steps as there are
bytes are enough. -/
def readFileListWithin : (fuel : Nat) → Bytes → Except IoError (List ListedFile)
  | 0, _ => .ok []
  | fuel + 1, bytes =>
      if bytes.isEmpty then
        .ok []
      else do
        let (file, bytes) ← ListedFile.read bytes
        let files ← readFileListWithin fuel bytes
        pure (file :: files)

def readFileList (bytes : Bytes) : Except IoError (List ListedFile) :=
  readFileListWithin bytes.length bytes

end Omod
end GameArchive
