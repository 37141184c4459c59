import GameArchive.Codec.Delivery
import GameArchive.Error

/-!
# Reading exact amounts

An archive promises sizes, and the bytes may not be there.  The readers of this module give
exactly the number of bytes that is asked for, or say how many there were.
-/

namespace GameArchive

structure Source where
  name : String
  bytes : Bytes
  deriving Repr, DecidableEq

/-- The next `count` bytes and what follows them. -/
def readBlock (archive : String) (entry : Option String) (count : Nat) (bytes : Bytes) :
    Except ExtractError (Bytes × Bytes) :=
  match bytes.split? count with
  | some cut => .ok cut
  | none => .error (.truncated archive entry count bytes.length)

/-- Reads a magic number of four bytes, and gives what follows it. -/
def readMagic (archive container : String) (expected : Bytes) (bytes : Bytes) :
    Except ExtractError Bytes :=
  match Bytes.split? 4 bytes with
  | none => .error (.invalidFormat archive .truncatedHeader)
  | some (found, rest) =>
      if found = expected then .ok rest
      else .error (.invalidFormat archive (.wrongMagic container))

def Delivery.takeExactly (delivery : Delivery) (archive : String) (entry : Option String)
    (count : Nat) : Except ExtractError Bytes :=
  match delivery.take? count with
  | none => .error (.io archive .codec)
  | some bytes =>
      if bytes.length = count then .ok bytes
      else .error (.truncated archive entry count bytes.length)

/-- The failure of a reader that asks for more than a delivery has. -/
def Delivery.shortfall (delivery : Delivery) : IoError :=
  match delivery.ending with
  | .finished => .shortRead
  | .cutOff => .incompleteStream
  | .rejected => .wrongChecksum
  | .broken _ => .corruptStream

/-- The greatest amount of memory that is set aside on the word of a header. -/
def maximumPreallocation : Nat := 64 * 1024 * 1024

/-- How much memory to set aside for `length` bytes that a header promises. -/
def preallocation (length : Nat) : Nat :=
  min length maximumPreallocation

end GameArchive
