import Std.Data.HashMap
import GameArchive.Bytes

/-!
# Repetitions in a byte string

A compressor replaces a run of bytes that occurred before by a copy.  `Repetition.find` walks over
the bytes once, remembers where each group of four bytes was last seen, and takes the longest
copy from there.  Its result covers the whole input with literal runs and copies; the formats
decide how these are written.
-/

namespace GameArchive

/-- A run of literal bytes and the copy that follows it. -/
structure Repetition where
  literals : Nat
  offset : Nat
  length : Nat
  deriving Repr, DecidableEq

namespace Repetition

def groupSize : Nat := 4

/-- The number that stands for the group of bytes at a position. -/
def group (data : Array UInt8) (position : Nat) : UInt32 :=
  (data.getD position 0).toUInt32 ||| ((data.getD (position + 1) 0).toUInt32 <<< 8) |||
    ((data.getD (position + 2) 0).toUInt32 <<< 16) |||
    ((data.getD (position + 3) 0).toUInt32 <<< 24)

/-- How many of the next `limit` bytes at two positions agree before the first difference. -/
def agreement (data : Array UInt8) : (limit first second : Nat) → Nat
  | 0, _, _ => 0
  | limit + 1, first, second =>
      if data.getD first 0 = data.getD second 0 then
        agreement data limit (first + 1) (second + 1) + 1
      else
        0

/-- Walks over the bytes from `position` on.  `start` is where the current literal run begins,
`seen` the last position of every group, `reach` the greatest offset, and copies stay clear of
the last `margin` bytes.  `fuel` is the number of bytes that are left. -/
def walk (data : Array UInt8) (reach margin : Nat) :
    (fuel : Nat) → (seen : Std.HashMap UInt32 Nat) → (start position : Nat) → List Repetition
  | 0, _, _, _ => []
  | fuel + 1, seen, start, position =>
      if data.size < position + groupSize + margin then
        []
      else
        let key := group data position
        let length := match seen[key]? with
          | some earlier =>
              if position - earlier ≤ reach then
                agreement data (data.size - margin - position) earlier position
              else
                0
          | none => 0
        let offset := position - (seen[key]?).getD 0
        let seen := seen.insert key position
        if groupSize ≤ length then
          ⟨position - start, offset, length⟩ ::
            walk data reach margin fuel seen (position + length) (position + length)
        else
          walk data reach margin fuel seen start (position + 1)

/-- The repetitions of a byte string; what follows the last one is literal. -/
def find (data : Array UInt8) (reach margin : Nat) : List Repetition :=
  walk data reach margin data.size ∅ 0 0

end Repetition
end GameArchive
