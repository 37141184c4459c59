import GameArchive.Codec.Delivery
import GameArchive.Codec.Huffman

/-!
# Deflate streams

A deflate stream is a sequence of blocks: stored bytes, or symbols of two prefix codes, either
the fixed ones or ones that the block describes.  A symbol stands for a byte, for the end of the
block, or for the length of a copy from the recent output.

An expansion keeps its progress when it fails, so that what was made of the stream before the
fault, and in which piece of the input the fault lies, is known.
-/

namespace GameArchive
namespace Inflate

/-- How far the expansion of a stream has come. -/
structure Progress where
  source : BitSource
  output : Array UInt8
  /-- The size of the output when the last byte of the current piece was taken, if it was. -/
  spent : Nat
  /-- The turns from piece to piece of the input, the latest first. -/
  turns : List Turn

namespace Progress

def start (source : BitSource) : Progress where
  source := source
  output := #[]
  spent := 0
  turns := []

/-- The progress after more bits were read, whose bytes are taken when the output has `size`
bytes. -/
def proceed (size : Nat) (source : BitSource) (progress : Progress) : Progress :=
  if source.index = progress.source.index then
    if progress.source.rest.isEmpty then { progress with source }
    else { progress with source, spent := size }
  else
    let spent := if progress.source.rest.isEmpty then progress.spent else size
    let turn : Turn := { spent, reached := progress.output.size }
    { progress with source, spent := size, turns := turn :: progress.turns }

def push (byte : UInt8) (progress : Progress) : Progress :=
  { progress with output := progress.output.push byte }

def deliver (ending : Ending) (progress : Progress) : Delivery where
  bytes := progress.output.toList
  turns := progress.turns.reverse
  ending := ending

end Progress

/-- An expansion of a part of a stream.  One that fails tells how far it came. -/
abbrev Expansion := EStateM Stop Progress

/-- Reads bits, which happens before there is room for more output. -/
def read {α : Type} (reader : BitReader α) : Expansion α := fun progress =>
  match reader progress.source with
  | .ok value source => .ok value (progress.proceed progress.output.size source)
  | .error stop source => .error stop (progress.proceed progress.output.size source)

/-- Base lengths and numbers of extra bits of the length symbols from 257 on. -/
def lengthTable : Array (Nat × Nat) := #[
  (3, 0), (4, 0), (5, 0), (6, 0), (7, 0), (8, 0), (9, 0), (10, 0), (11, 1), (13, 1), (15, 1),
  (17, 1), (19, 2), (23, 2), (27, 2), (31, 2), (35, 3), (43, 3), (51, 3), (59, 3), (67, 4),
  (83, 4), (99, 4), (115, 4), (131, 5), (163, 5), (195, 5), (227, 5), (258, 0)]

/-- Base distances and numbers of extra bits of the distance symbols. -/
def distanceTable : Array (Nat × Nat) := #[
  (1, 0), (2, 0), (3, 0), (4, 0), (5, 1), (7, 1), (9, 2), (13, 2), (17, 3), (25, 3), (33, 4),
  (49, 4), (65, 5), (97, 5), (129, 6), (193, 6), (257, 7), (385, 7), (513, 8), (769, 8),
  (1025, 9), (1537, 9), (2049, 10), (3073, 10), (4097, 11), (6145, 11), (8193, 12), (12289, 12),
  (16385, 13), (24577, 13)]

/-- Reads a base value of a table and the extra bits that add to it. -/
def tableValue (table : Array (Nat × Nat)) (index : Nat) : BitReader Nat := do
  match table[index]? with
  | none => throw (.corrupt true)
  | some (base, width) =>
      let extra ← BitReader.number width
      pure (base + extra)

inductive Token where
  | byte (value : UInt8)
  | endOfBlock
  | copy (length distance : Nat)

/-- Reads one symbol with what belongs to it. -/
def token (literals distances : Huffman) : BitReader Token := do
  let symbol ← literals.read
  if symbol < 256 then
    pure (.byte (UInt8.ofNat symbol))
  else if symbol = 256 then
    pure .endOfBlock
  else
    let length ← tableValue lengthTable (symbol - 257)
    let distanceSymbol ← distances.read
    let distance ← tableValue distanceTable distanceSymbol
    pure (.copy length distance)

/-- The output after `length` bytes were copied one by one from `distance` bytes back. -/
def copyBack (distance : Nat) : (length : Nat) → Array UInt8 → Array UInt8
  | 0, output => output
  | length + 1, output =>
      copyBack distance length (output.push (output.getD (output.size - distance) 0))

/-- Expands symbols up to the end of the block; every symbol takes at least one bit, and `fuel`
exceeds the number of bits. -/
def symbols (literals distances : Huffman) : (fuel : Nat) → Expansion Unit
  | 0, progress => .error .exhausted progress
  | fuel + 1, progress =>
      match read (token literals distances) progress with
      | .error stop progress => .error stop progress
      | .ok (.byte value) progress => symbols literals distances fuel (progress.push value)
      | .ok .endOfBlock progress => .ok () progress
      | .ok (.copy length distance) progress =>
          if distance ≤ progress.output.size then
            symbols literals distances fuel
              { progress with output := copyBack distance length progress.output }
          else
            .error (.corrupt false) progress

def fixedLiteralLengths : List Nat :=
  List.replicate 144 8 ++ List.replicate 112 9 ++ List.replicate 24 7 ++ List.replicate 8 8

def fixedLiterals : Huffman :=
  (Huffman.ofLengths? false fixedLiteralLengths).getD ⟨[], #[]⟩

def fixedDistances : Huffman :=
  (Huffman.ofLengths? false (List.replicate 32 5)).getD ⟨[], #[]⟩

def lengthOrder : List Nat :=
  [16, 17, 18, 0, 8, 7, 9, 6, 10, 5, 11, 4, 12, 3, 13, 2, 14, 1, 15]

def smallNumbers : (count : Nat) → BitReader (List Nat)
  | 0 => pure []
  | count + 1 => do
      let first ← BitReader.number 3
      let rest ← smallNumbers count
      pure (first :: rest)

/-- The code in which a block writes the lengths of its two codes, from the lengths written for it
in `lengthOrder`.  Without any word every bit stands for a length of zero. -/
def lengthCode (written : List Nat) : BitReader Huffman := do
  let lengths := (List.range 19).map fun symbol =>
    ((lengthOrder.zip written).lookup symbol).getD 0
  if lengths.all (· == 0) then
    pure Huffman.blank
  else
    match Huffman.ofLengths? false lengths with
    | some code => pure code
    | none => throw (.corrupt true)

/-- Reads code word lengths until there are `total` of them, the latest first in `found`.  Every
step adds a length at least, so `total` steps are enough. -/
def codeLengths (code : Huffman) (total : Nat) :
    (fuel : Nat) → (found : List Nat) → BitReader (List Nat)
  | 0, found => pure found.reverse
  | fuel + 1, found => do
      if total ≤ found.length then
        pure found.reverse
      else
        let symbol ← code.read
        if symbol < 16 then
          codeLengths code total fuel (symbol :: found)
        else
          let repeated ←
            if symbol = 16 then do
              let extra ← BitReader.number 2
              match found with
              | [] => throw (.corrupt true)
              | previous :: _ => pure (List.replicate (3 + extra) previous)
            else if symbol = 17 then do
              let extra ← BitReader.number 3
              pure (List.replicate (3 + extra) 0)
            else do
              let extra ← BitReader.number 7
              pure (List.replicate (11 + extra) 0)
          BitReader.require (found.length + repeated.length ≤ total)
          codeLengths code total fuel (repeated ++ found)

def describedCodes : BitReader (Huffman × Huffman) := do
  let literalCount ← (· + 257) <$> BitReader.number 5
  let distanceCount ← (· + 1) <$> BitReader.number 5
  let writtenCount ← (· + 4) <$> BitReader.number 4
  BitReader.require (literalCount ≤ 286 && distanceCount ≤ 30)
  let written ← smallNumbers writtenCount
  let code ← lengthCode written
  let total := literalCount + distanceCount
  let lengths ← codeLengths code total total []
  BitReader.require (lengths.getD 256 0 != 0)
  match Huffman.ofLengths? true (lengths.take literalCount),
      Huffman.ofLengths? true (lengths.drop literalCount) with
  | some literals, some distances => pure (literals, distances)
  | _, _ => throw (.corrupt true)

def storedLength : BitReader Nat := do
  BitReader.align
  let length ← BitReader.number 16
  let complement ← BitReader.number 16
  BitReader.require (length + complement == 0xFFFF)
  pure length

/-- Takes over stored bytes, each of which is taken together with its output. -/
def stored : (length : Nat) → Expansion Unit
  | 0, progress => .ok () progress
  | length + 1, progress =>
      match progress.source.nextByte? with
      | none => .error .exhausted progress
      | some (byte, source) =>
          stored length ((progress.proceed (progress.output.size + 1) source).push byte)

def body (fuel kind : Nat) : Expansion Unit :=
  match kind with
  | 0 => do
      let length ← read storedLength
      stored length
  | 1 => symbols fixedLiterals fixedDistances fuel
  | 2 => do
      let (literals, distances) ← read describedCodes
      symbols literals distances fuel
  | _ => throw (.corrupt true)

/-- Expands blocks up to the last one.  Every block takes three bits at least, and `bits` exceeds
the number of bits. -/
def blocks (bits : Nat) : (fuel : Nat) → Expansion Unit
  | 0 => throw .exhausted
  | fuel + 1 => do
      let header ← read (BitReader.number 3)
      body bits (header / 2)
      if header % 2 = 1 then pure () else blocks bits fuel

def bitBound (bytes : Bytes) : Nat :=
  8 * bytes.length + 1

def stream (bytes : Bytes) : Expansion Unit :=
  blocks (bitBound bytes) (bitBound bytes)

def endingOfStop : Stop → Ending
  | .exhausted => .cutOff
  | .corrupt early => .broken early

/-- What an expansion delivers from an input that is handed over in pieces of a given size. -/
def deliver (expansion : Expansion Unit) (pieceSize : Nat) (bytes : Bytes) : Delivery :=
  match expansion (Progress.start (.ofPieces (bytes.pieces pieceSize))) with
  | .ok _ progress => progress.deliver .finished
  | .error stop progress => progress.deliver (endingOfStop stop)

/-- What the decoder of a bare deflate stream delivers; bytes after the stream are ignored. -/
def decode (pieceSize : Nat) (bytes : Bytes) : Delivery :=
  deliver (stream bytes) pieceSize bytes

end Inflate
end GameArchive
