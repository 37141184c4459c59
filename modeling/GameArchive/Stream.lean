import GameArchive.Error

/-!
# Streams

A stream is a byte string with a position.  A read asks for a number of bytes and may be granted
fewer, as long as it gets one at least while there is one; how much each read is granted belongs
to the stream.  What a reader that asks again until it has enough finally holds does not depend
on the grants.

Positions are words of 64 bits.  A seek may go beyond the end, but it fails when the position it
asks for is negative or beyond the greatest one that the stream has: in memory that is any word,
in a file the greatest signed one.
-/

namespace GameArchive

inductive SeekOrigin where
  | start (position : UInt64)
  | current (distance : Int)
  | fromEnd (distance : Int)
  deriving Repr, DecidableEq

/-- A byte string with a position. -/
structure Stream where
  bytes : Bytes
  position : UInt64
  /-- The greatest numbers of bytes that the next reads are granted; all reads after them get
  what they ask for. -/
  grants : List Nat
  limit : UInt64
  deriving Repr, DecidableEq

namespace Stream

def memoryLimit : UInt64 := 0xFFFFFFFFFFFFFFFF

def fileLimit : UInt64 := 0x7FFFFFFFFFFFFFFF

/-- A stream at the start of a byte string in memory whose reads get what they ask for. -/
def ofBytes (bytes : Bytes) : Stream where
  bytes := bytes
  position := 0
  grants := []
  limit := memoryLimit

def ofFile (bytes : Bytes) : Stream :=
  { ofBytes bytes with limit := fileLimit }

/-- The bytes from the position on. -/
def rest (stream : Stream) : Bytes :=
  stream.bytes.drop stream.position.toNat

/-- How many bytes the next read of `count` bytes is granted. -/
def granted (stream : Stream) (count : Nat) : Nat :=
  match stream.grants with
  | [] => count
  | grant :: _ => min count (max 1 grant)

/-- One read of at most `count` bytes. -/
def read (stream : Stream) (count : Nat) : Bytes × Stream :=
  let bytes := stream.rest.take (stream.granted count)
  (bytes, {
    stream with
    position := stream.position + UInt64.ofNat bytes.length
    grants := stream.grants.tail })

/-- Reads until `count` bytes are there or a read gives nothing.  Every other read gives one byte
at least, so `count` reads are enough. -/
def readFully : (fuel : Nat) → (count : Nat) → Stream → Bytes × Stream
  | 0, _, stream => ([], stream)
  | fuel + 1, count, stream =>
      if count = 0 then
        ([], stream)
      else
        let (first, next) := stream.read count
        if first.isEmpty then
          ([], next)
        else
          let (others, last) := readFully fuel (count - first.length) next
          (first ++ others, last)

/-- The position that a seek asks for, counted without bounds. -/
def target (stream : Stream) : SeekOrigin → Int
  | .start position => position.toNat
  | .current distance => stream.position.toNat + distance
  | .fromEnd distance => stream.bytes.length + distance

def seek (stream : Stream) (origin : SeekOrigin) : Except IoError Stream :=
  let target := stream.target origin
  if target < 0 ∨ stream.limit.toNat < target then
    .error .seekOutOfRange
  else
    .ok { stream with position := UInt64.ofNat target.toNat }

end Stream
end GameArchive
