import GameArchive.Text.Blank
import GameArchive.Text.Decimal
import GameArchive.Text.Utf8

/-!
# Progress of the archiver

A progress line shows a percentage in its first three bytes, a percent sign, and something after
it.  The percentages are turned into numbers of bytes of the source: each one counts what it adds
to the greatest before it, so that in the end nothing is counted twice.
-/

namespace GameArchive
namespace Archiver

/-- The percentage that a line of output shows. -/
def percentage? (line : String) : Option Nat :=
  match Utf8.encode line with
  | first :: second :: third :: 0x25 :: _ :: _ =>
      match Utf8.decode [first, second, third] with
      | .ok digits => Decimal.parse? UInt8.size (Blank.trim digits.toList)
      | .error _ => none
  | _ => none

/-- How many bytes of a source are done. -/
structure Tracker where
  total : UInt64
  done : UInt64
  deriving Repr, DecidableEq

namespace Tracker

def start (total : UInt64) : Tracker :=
  ⟨total, 0⟩

def greatestWord : Nat := UInt64.size - 1

/-- The bytes of the source up to a percentage.  The product is held in a word, which is the
greatest one when the product is beyond it. -/
def mark (tracker : Tracker) (percentage : Nat) : Nat :=
  min (tracker.total.toNat * min percentage 100) greatestWord / 100

/-- The bytes that a percentage adds. -/
def advance (tracker : Tracker) (percentage : Nat) : UInt64 × Tracker :=
  let mark := tracker.mark percentage
  (UInt64.ofNat (mark - tracker.done.toNat),
    { tracker with done := UInt64.ofNat (max tracker.done.toNat mark) })

/-- The bytes that each of some percentages adds to those before it. -/
def advances (tracker : Tracker) : List Nat → List UInt64
  | [] => []
  | percentage :: percentages =>
      let (delta, tracker) := tracker.advance percentage
      delta :: tracker.advances percentages

/-- The numbers of bytes that the percentages in some lines add, without those that are zero. -/
def deltas (tracker : Tracker) (lines : List String) : List UInt64 :=
  (tracker.advances (lines.filterMap percentage?)).filter (· ≠ 0)

end Tracker
end Archiver
end GameArchive
