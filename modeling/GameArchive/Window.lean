import GameArchive.Stream

/-!
# Windows into streams

A window shows a part of a stream as if it were a stream of its own.  It keeps its own position
beside that of the stream below it, which stands `start` bytes further.
-/

namespace GameArchive

/-- The part of a stream that begins at `start` and has `length` bytes. -/
structure Window where
  inner : Stream
  start : UInt64
  length : UInt64
  /-- The position within the window, which may lie beyond its end. -/
  position : UInt64
  deriving Repr, DecidableEq

namespace Window

def ofStream (inner : Stream) (start length : UInt64) : Window where
  inner := { inner with position := start }
  start := start
  length := length
  position := 0

def isEmpty (window : Window) : Bool :=
  window.length == 0

/-- The number of bytes between the position and the end of the window. -/
def remaining (window : Window) : Nat :=
  window.length.toNat - window.position.toNat

/-- One read of at most `count` bytes. -/
def read (window : Window) (count : Nat) : Bytes × Window :=
  let wanted := min count window.remaining
  if wanted = 0 then
    ([], window)
  else
    let (bytes, inner) := window.inner.read wanted
    (bytes, {
      window with
      inner
      position := window.position + UInt64.ofNat bytes.length })

/-- Reads until `count` bytes are there or a read gives nothing.  Every other read gives one byte
at least, so `count` reads are enough. -/
def readFully : (fuel : Nat) → (count : Nat) → Window → Bytes × Window
  | 0, _, window => ([], window)
  | fuel + 1, count, window =>
      if count = 0 then
        ([], window)
      else
        let (first, next) := window.read count
        if first.isEmpty then
          ([], next)
        else
          let (others, last) := readFully fuel (count - first.length) next
          (first ++ others, last)

/-- The position that a seek goes to, counted without bounds. -/
def target (window : Window) : SeekOrigin → Int
  | .start position => position.toNat
  | .current distance => window.position.toNat + distance
  | .fromEnd distance => window.length.toNat + distance

def seek (window : Window) (origin : SeekOrigin) : Except IoError Window :=
  let target := window.target origin
  if target < 0 then
    .error .seekBeforeWindow
  else do
    let position := UInt64.ofNat target.toNat
    let inner ← window.inner.seek (.start (window.start + position))
    pure { window with inner, position }

end Window
end GameArchive
