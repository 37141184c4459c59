import GameArchive.Bytes

/-!
# Range decoding

A range coder narrows an interval of 32 bits with every bit that it codes.  Each adaptive bit has
the estimated probability of a zero, in parts of 2048, which moves a little towards every bit that
is decoded.  Plain bits halve the interval.  A byte of the input is taken when the interval has
become too narrow for the next bit.  An input that has ended goes on with bytes of one value.
-/

namespace GameArchive

structure RangeDecoder where
  range : UInt32
  /-- The distance of the coded number from the lower end of the interval. -/
  code : UInt32
  input : Bytes
  /-- The probabilities of zeros, each under its own index. -/
  probabilities : Array UInt32

abbrev RangeReader := StateM RangeDecoder

namespace RangeDecoder

/-- One half, the first estimate of every probability. -/
def evenOdds : UInt32 := 1024

/-- What the start of an input amounts to. -/
inductive Start where
  | begun (decoder : RangeDecoder)
  /-- The input does not begin with a zero byte. -/
  | malformed
  /-- The input ends before the first coded number. -/
  | short

/-- The start of an input with `count` adaptive bits. -/
def start (count : Nat) (input : Bytes) : Start :=
  match input with
  | [] => .short
  | byte :: rest =>
      if byte ≠ 0 then
        .malformed
      else
        match Bytes.split? 4 rest with
        | none => .short
        | some (code, rest) => .begun {
            range := 0xFFFFFFFF
            code := UInt32.ofNat (LittleEndian.decode code.reverse)
            input := rest
            probabilities := Array.replicate count evenOdds }

end RangeDecoder

namespace RangeReader

/-- The byte that follows an input that has ended. -/
def fillByte : UInt8 := 1

/-- Takes a byte of the input if the interval is too narrow. -/
def normalize : RangeReader Unit := fun decoder =>
  if decoder.range < 0x1000000 then
    ((), {
      decoder with
      range := decoder.range <<< 8
      code := (decoder.code <<< 8) ||| (decoder.input.headD fillByte).toUInt32
      input := decoder.input.tail })
  else
    ((), decoder)

/-- Decodes an adaptive bit in a wide enough interval. -/
def choose (index : Nat) : RangeReader Nat := fun decoder =>
  let probability := decoder.probabilities.getD index RangeDecoder.evenOdds
  let bound := (decoder.range >>> 11) * probability
  if decoder.code < bound then
    (0, {
      decoder with
      range := bound
      probabilities :=
        decoder.probabilities.setIfInBounds index (probability + ((2048 - probability) >>> 5)) })
  else
    (1, {
      decoder with
      range := decoder.range - bound
      code := decoder.code - bound
      probabilities :=
        decoder.probabilities.setIfInBounds index (probability - (probability >>> 5)) })

def bit (index : Nat) : RangeReader Nat := do
  normalize
  choose index

/-- Decodes a plain bit in a wide enough interval. -/
def halve : RangeReader Nat := fun decoder =>
  let range := decoder.range >>> 1
  if decoder.code < range then
    (0, { decoder with range })
  else
    (1, { decoder with range, code := decoder.code - range })

/-- Decodes a number of `width` plain bits, highest first, after bits of value `value`. -/
def plainFrom : (width : Nat) → (value : Nat) → RangeReader Nat
  | 0, value => pure value
  | width + 1, value => do
      normalize
      let next ← halve
      plainFrom width (2 * value + next)

def plain (width : Nat) : RangeReader Nat :=
  plainFrom width 0

/-- Walks down a tree of adaptive bits from a node; gives the node that is reached. -/
def descend (base : Nat) : (depth : Nat) → (node : Nat) → RangeReader Nat
  | 0, node => pure node
  | depth + 1, node => do
      let next ← bit (base + node)
      descend base depth (2 * node + next)

def tree (base depth : Nat) : RangeReader Nat := do
  let node ← descend base depth 1
  pure (node - (1 <<< depth))

/-- Decodes adaptive bits from a node on, lowest first, the first with weight `weight`. -/
def reverseFrom (base : Nat) : (depth : Nat) → (node weight : Nat) → RangeReader Nat
  | 0, _, _ => pure 0
  | depth + 1, node, weight => do
      let next ← bit (base + node)
      let rest ← reverseFrom base depth (2 * node + next) (2 * weight)
      pure (next * weight + rest)

/-- Decodes a number of `depth` adaptive bits, lowest first. -/
def reverseTree (base depth : Nat) : RangeReader Nat :=
  reverseFrom base depth 1 1

end RangeReader
end GameArchive
