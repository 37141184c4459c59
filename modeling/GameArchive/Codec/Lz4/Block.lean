import GameArchive.Bytes

/-!
# LZ4 blocks

A block is a list of sequences and a last run of literal bytes.  A sequence is a run of literal
bytes and a copy of at least four bytes from the recent output.  `Block.read?` finds the parts of
a block, and `Block.expand?` produces its bytes after a given history, within a given limit.
-/

namespace GameArchive
namespace Lz4

/-- Literal bytes, then a copy of `length` bytes from `offset` bytes back. -/
structure Sequence where
  literals : Bytes
  offset : Nat
  length : Nat
  deriving Repr, DecidableEq

structure Block where
  sequences : List Sequence
  tail : Bytes
  deriving Repr, DecidableEq

def minimumMatch : Nat := 4

/-- Adds up the bytes that extend a length, the last of which is the first below 255. -/
def readExtension? : Bytes → Option (Nat × Bytes)
  | [] => none
  | byte :: rest =>
      if byte = 255 then
        (readExtension? rest).map fun (more, rest) => (255 + more, rest)
      else
        some (byte.toNat, rest)

/-- The length that a half byte begins; fifteen says that extension bytes follow. -/
def readLength? (nibble : Nat) (bytes : Bytes) : Option (Nat × Bytes) :=
  if nibble = 15 then
    (readExtension? bytes).map fun (more, rest) => (15 + more, rest)
  else
    some (nibble, bytes)

inductive Part where
  | sequence (value : Sequence) (rest : Bytes)
  | tail (literals : Bytes)
  deriving Repr, DecidableEq

def readLiterals? (nibble : Nat) (bytes : Bytes) : Option (Bytes × Bytes) := do
  let (length, rest) ← readLength? nibble bytes
  rest.split? length

/-- Reads one part of a block.  The literals of the last part reach the end of the block. -/
def readPart? : Bytes → Option Part
  | [] => none
  | token :: rest => do
      let (literals, rest) ← readLiterals? (token.toNat / 16) rest
      if rest.isEmpty then
        pure (.tail literals)
      else
        let (offset, rest) ← LittleEndian.read? 2 rest
        let (length, rest) ← readLength? (token.toNat % 16) rest
        pure (.sequence ⟨literals, offset, minimumMatch + length⟩ rest)

/-- Reads the parts of a block.  Every part takes a byte at least, and `fuel` exceeds the number
of bytes. -/
def readParts? : (fuel : Nat) → Bytes → Option Block
  | 0, _ => none
  | fuel + 1, bytes =>
      match readPart? bytes with
      | none => none
      | some (.tail literals) => some ⟨[], literals⟩
      | some (.sequence sequence rest) =>
          (readParts? fuel rest).map fun block =>
            { block with sequences := sequence :: block.sequences }

def Block.read? (bytes : Bytes) : Option Block :=
  readParts? (bytes.length + 1) bytes

/-- The output after `length` bytes were copied one by one from `offset` bytes back. -/
def copyBack (offset : Nat) : (length : Nat) → Array UInt8 → Array UInt8
  | 0, output => output
  | length + 1, output =>
      copyBack offset length (output.push (output.getD (output.size - offset) 0))

/-- The output after one sequence, unless it reaches before the start or beyond the limit. -/
def expandSequence? (limit : Nat) (output : Array UInt8) (sequence : Sequence) :
    Option (Array UInt8) :=
  let extended := output ++ sequence.literals.toArray
  if 1 ≤ sequence.offset ∧ sequence.offset ≤ extended.size ∧
      extended.size + sequence.length ≤ limit then
    some (copyBack sequence.offset sequence.length extended)
  else
    none

/-- The output after a block, which may not grow beyond `limit` bytes. -/
def Block.expandInto? (limit : Nat) (block : Block) (output : Array UInt8) :
    Option (Array UInt8) := do
  let expanded ← block.sequences.foldlM (expandSequence? limit) output
  if expanded.size + block.tail.length ≤ limit then
    some (expanded ++ block.tail.toArray)
  else
    none

/-- The bytes of a block with an empty history, of which there may be at most `limit`. -/
def Block.expand? (limit : Nat) (block : Block) : Option Bytes :=
  (block.expandInto? limit #[]).map Array.toList

def decodeBlock? (limit : Nat) (bytes : Bytes) : Option Bytes :=
  (Block.read? bytes).bind (Block.expand? limit)

/-- The bytes that extend a length of fifteen by `extra`. -/
def extensionBytes (extra : Nat) : Bytes :=
  List.replicate (extra / 255) 255 ++ [UInt8.ofNat (extra % 255)]

/-- The half byte of a length, and its extension bytes. -/
def writeLength (length : Nat) : Nat × Bytes :=
  if length < 15 then (length, []) else (15, extensionBytes (length - 15))

def Sequence.write (sequence : Sequence) : Bytes :=
  let (high, highBytes) := writeLength sequence.literals.length
  let (low, lowBytes) := writeLength (sequence.length - minimumMatch)
  UInt8.ofNat (16 * high + low) ::
    (highBytes ++ sequence.literals ++ LittleEndian.encode 2 sequence.offset ++ lowBytes)

def writeTail (literals : Bytes) : Bytes :=
  let (high, highBytes) := writeLength literals.length
  UInt8.ofNat (16 * high) :: (highBytes ++ literals)

def Block.write (block : Block) : Bytes :=
  block.sequences.flatMap Sequence.write ++ writeTail block.tail

end Lz4
end GameArchive
