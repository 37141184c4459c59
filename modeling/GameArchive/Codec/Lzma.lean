import GameArchive.Codec.Delivery
import GameArchive.Codec.RangeDecoder

/-!
# LZMA streams

A bare LZMA stream is a sequence of range-coded tokens: a byte, or a copy from the recent output.
A copy has a distance of its own or one of the last four distances.  The kinds of the last tokens
form a state that selects the probabilities.  The length of the output is known, and decoding
stops there; a token that says that the stream ends before it is a fault, and so is a copy that
reaches beyond it.  The greatest length stands for an unknown one, and then that token ends the
stream.
-/

namespace GameArchive
namespace Lzma

structure Properties where
  /-- How many high bits of the last byte select the probabilities of a byte. -/
  contextBits : Nat
  /-- How many low bits of the position select the probabilities of a byte. -/
  literalPositionBits : Nat
  /-- How many low bits of the position select the other probabilities. -/
  positionBits : Nat
  /-- How far copies reach back. -/
  windowSize : Nat
  deriving Repr, DecidableEq

def propertiesLength : Nat := 5

def maximumDictionary : Nat := 0xFFFFFFF0

def windowFor (dictionary : Nat) : Nat :=
  (max dictionary 4096 + 15) / 16 * 16

def Properties.ofBytes? (bytes : Bytes) : Option Properties :=
  let packed := (bytes.headD 0).toNat
  let dictionary := LittleEndian.decode ((bytes.drop 1).take 4)
  if 225 ≤ packed ∨ maximumDictionary < dictionary then
    none
  else
    some {
      contextBits := packed % 9
      literalPositionBits := packed / 9 % 5
      positionBits := packed / 45
      windowSize := windowFor dictionary }

/-! The adaptive bits lie one group after the other. -/

/-- The start of the bits that tell copies from bytes. -/
def copyBits : Nat := 0

/-- The start of the bits that tell copies with a former distance from others. -/
def repeatBits : Nat := 192

/-- The start of the bits that tell the last distance from older ones. -/
def olderBits : Nat := 204

/-- The start of the bits that tell the last distance but one from older ones. -/
def olderStillBits : Nat := 216

/-- The start of the bits that tell the last distance but two from the oldest. -/
def oldestBits : Nat := 228

/-- The start of the bits that tell a longer copy from one of a single byte. -/
def longBits : Nat := 240

/-- The start of the trees for the magnitudes of distances. -/
def slotTrees : Nat := 432

/-- The start of the trees for the low bits of middle distances. -/
def middleTrees : Nat := 688

/-- The start of the tree for the low bits of great distances. -/
def alignTree : Nat := 816

/-- The start of the bits for the lengths of copies with a new distance. -/
def newLengths : Nat := 832

/-- The start of the bits for the lengths of copies with a former distance. -/
def repeatLengths : Nat := 1346

/-- The start of the trees for bytes. -/
def literalTrees : Nat := 1860

def Properties.bitCount (properties : Properties) : Nat :=
  literalTrees + (0x300 <<< (properties.contextBits + properties.literalPositionBits))

/-- What the decoding of the next token depends on. -/
structure History where
  output : Array UInt8
  /-- The state that the kinds of the last tokens form. -/
  state : Nat
  /-- The last four distances less one, the latest first. -/
  distance0 : Nat
  distance1 : Nat
  distance2 : Nat
  distance3 : Nat
  /-- The number of bytes of the last copy that have no room in the output. -/
  excess : Nat
  /-- Whether the last token was a copy from beyond the recent output. -/
  isBroken : Bool

def History.start : History where
  output := #[]
  state := 0
  distance0 := 0
  distance1 := 0
  distance2 := 0
  distance3 := 0
  excess := 0
  isBroken := false

def History.byteAt (history : History) (distance : Nat) : UInt8 :=
  history.output.getD (history.output.size - distance - 1) 0

def stateAfterByte (state : Nat) : Nat :=
  if state < 4 then 0 else if state < 10 then state - 3 else state - 6

/-- The state after a copy, one of two values. -/
def stateAfterCopy (afterByte afterCopy state : Nat) : Nat :=
  if state < 7 then afterByte else afterCopy

/-- Decodes the bits of a byte that follows a copy, as long as they agree with those of the byte
`expected`; `symbol` holds a one and the bits so far. -/
def matchedByte (base : Nat) : (fuel : Nat) → (expected symbol : Nat) → RangeReader Nat
  | 0, _, symbol => pure symbol
  | fuel + 1, expected, symbol => do
      let expectedBit := expected / 128 % 2
      let next ← RangeReader.bit (base + (1 + expectedBit) * 256 + symbol)
      let symbol := 2 * symbol + next
      if next = expectedBit then matchedByte base fuel (2 * expected) symbol
      else RangeReader.descend base fuel symbol

def literal (properties : Properties) (history : History) : RangeReader UInt8 := do
  let previous := if history.output.isEmpty then 0 else (history.byteAt 0).toNat
  let position := history.output.size % (1 <<< properties.literalPositionBits)
  let context := (position <<< properties.contextBits) +
    (previous >>> (8 - properties.contextBits))
  let base := literalTrees + 0x300 * context
  let symbol ←
    if history.state < 7 then RangeReader.descend base 8 1
    else matchedByte base 8 (history.byteAt history.distance0).toNat 1
  pure (UInt8.ofNat symbol)

def length (base position : Nat) : RangeReader Nat := do
  if (← RangeReader.bit base) = 0 then
    let low ← RangeReader.tree (base + 2 + 8 * position) 3
    pure (2 + low)
  else if (← RangeReader.bit (base + 1)) = 0 then
    let middle ← RangeReader.tree (base + 130 + 8 * position) 3
    pure (10 + middle)
  else
    let high ← RangeReader.tree (base + 258) 8
    pure (18 + high)

/-- Decodes the distance less one of a copy with a given length. -/
def distance (length : Nat) : RangeReader Nat := do
  let slot ← RangeReader.tree (slotTrees + 64 * min (length - 2) 3) 6
  if slot < 4 then
    pure slot
  else
    let width := slot / 2 - 1
    let high := (2 + slot % 2) <<< width
    if slot < 14 then
      let low ← RangeReader.reverseTree (middleTrees + high - slot) width
      pure (high + low)
    else
      let middle ← RangeReader.plain (width - 4)
      let low ← RangeReader.reverseTree alignTree 4
      pure (high + 16 * middle + low)

/-- Decodes which former distance a copy has, and makes it the latest. -/
def formerDistance (history : History) : RangeReader History := do
  if (← RangeReader.bit (olderStillBits + history.state)) = 0 then
    pure { history with distance0 := history.distance1, distance1 := history.distance0 }
  else if (← RangeReader.bit (oldestBits + history.state)) = 0 then
    pure {
      history with
      distance0 := history.distance2
      distance1 := history.distance0
      distance2 := history.distance1 }
  else
    pure {
      history with
      distance0 := history.distance3
      distance1 := history.distance0
      distance2 := history.distance1
      distance3 := history.distance2 }

def repeatedCopy (position : Nat) (history : History) : RangeReader (Nat × History) := do
  let state := history.state
  if (← RangeReader.bit (olderBits + state)) = 0 then
    if (← RangeReader.bit (longBits + 16 * state + position)) = 0 then
      pure (1, { history with state := stateAfterCopy 9 11 state })
    else
      let count ← length repeatLengths position
      pure (count, { history with state := stateAfterCopy 8 11 state })
  else
    let history ← formerDistance history
    let count ← length repeatLengths position
    pure (count, { history with state := stateAfterCopy 8 11 state })

def newCopy (position : Nat) (history : History) : RangeReader (Nat × History) := do
  let count ← length newLengths position
  let found ← distance count
  pure (count, {
    history with
    state := stateAfterCopy 7 10 history.state
    distance0 := found
    distance1 := history.distance0
    distance2 := history.distance1
    distance3 := history.distance2 })

/-- The output after `count` bytes were copied one by one from `distance + 1` bytes back. -/
def copyBack (distance : Nat) : (count : Nat) → Array UInt8 → Array UInt8
  | 0, output => output
  | count + 1, output =>
      copyBack distance count (output.push (output.getD (output.size - distance - 1) 0))

/-- Decodes one token where `room` bytes are still wanted. -/
def token (properties : Properties) (room : Nat) (history : History) : RangeReader History := do
  let position := history.output.size % (1 <<< properties.positionBits)
  if (← RangeReader.bit (copyBits + 16 * history.state + position)) = 0 then
    let byte ← literal properties history
    pure { history with output := history.output.push byte, state := stateAfterByte history.state }
  else
    let isRepeated ← RangeReader.bit (repeatBits + history.state)
    let (count, history) ←
      if isRepeated = 0 then newCopy position history else repeatedCopy position history
    if min history.output.size properties.windowSize ≤ history.distance0 then
      pure { history with isBroken := true }
    else
      pure {
        history with
        output := copyBack history.distance0 (min count room) history.output
        excess := count - room }

def History.deliver (history : History) (ending : Ending) : Delivery where
  bytes := history.output.toList
  turns := []
  ending := ending

def History.close (history : History) : Delivery :=
  history.deliver (if history.excess = 0 then .finished else .broken true)

/-- The distance less one of the token that says that the stream ends. -/
def endDistance : Nat := 0xFFFFFFFF

/-- The number of bytes of output that stands for an unknown one. -/
def unknownTotal : Nat := UInt64.size - 1

def History.breakOff (total : Nat) (history : History) : Delivery :=
  if total = unknownTotal ∧ history.distance0 = endDistance then history.deliver .finished
  else history.deliver (.broken false)

/-- Decodes tokens until the output has `total` bytes.  Every token gives one byte at least, so as
many tokens as bytes are enough. -/
def tokens (properties : Properties) (total : Nat) :
    (fuel : Nat) → RangeDecoder → History → Delivery
  | 0, _, history => history.close
  | fuel + 1, decoder, history =>
      if total ≤ history.output.size then
        history.close
      else
        let room := total - history.output.size
        let (history, decoder) := (token properties room history).run decoder
        if history.isBroken then history.breakOff total
        else tokens properties total fuel decoder history

/-- What the decoder of a stream with `total` bytes of output delivers. -/
def decode (properties : Properties) (total : Nat) (decoder : RangeDecoder) : Delivery :=
  tokens properties total total decoder History.start

end Lzma
end GameArchive
