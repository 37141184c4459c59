import GameArchive.Bytes

/-!
# Bits of a byte string

A deflate stream is a sequence of bits, the lowest bit of each byte first.  Its bytes are handed
over in pieces, and a source knows how many of them were begun.
-/

namespace GameArchive

/-- The bits that are left of a byte string. -/
structure BitSource where
  /-- The rest of the current byte, its next bit lowest. -/
  held : UInt8
  /-- The number of bits left in the current byte. -/
  count : Nat
  /-- The bytes of the current piece after the current one. -/
  rest : Bytes
  /-- The pieces after the current one, none of which is empty. -/
  later : List Bytes
  /-- The number of pieces before the current one. -/
  index : Nat

namespace BitSource

/-- All bits of a byte string in pieces, none of which is empty. -/
def ofPieces : List Bytes → BitSource
  | [] => ⟨0, 0, [], [], 0⟩
  | first :: later => ⟨0, 0, first, later, 0⟩

/-- The next whole byte; the rest of the current one is left where it is. -/
def nextByte? (source : BitSource) : Option (UInt8 × BitSource) :=
  match source.rest with
  | byte :: rest => some (byte, { source with rest })
  | [] =>
      match source.later with
      | (byte :: rest) :: later =>
          some (byte, { source with rest, later, index := source.index + 1 })
      | _ => none

def next? (source : BitSource) : Option (Bool × BitSource) :=
  match source.count with
  | count + 1 => some (source.held &&& 1 == 1, { source with held := source.held >>> 1, count })
  | 0 =>
      match source.nextByte? with
      | none => none
      | some (byte, source) =>
          some (byte &&& 1 == 1, { source with held := byte >>> 1, count := 7 })

/-- The number that the next `width` bits write, lowest bit first. -/
def number? : (width : Nat) → BitSource → Option (Nat × BitSource)
  | 0, source => some (0, source)
  | width + 1, source =>
      match source.next? with
      | none => none
      | some (bit, source) =>
          (number? width source).map fun (high, source) => (bit.toNat + 2 * high, source)

def align (source : BitSource) : BitSource :=
  { source with held := 0, count := 0 }

end BitSource
end GameArchive
