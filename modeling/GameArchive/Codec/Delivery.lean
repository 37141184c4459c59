import GameArchive.Bytes

/-!
# What a decoder delivers

A decoder hands out its output on request, a number of bytes at a time, and may fail on the
way.  A `Delivery` holds everything that it would hand out and the manner in which it ends.  What
a reader sees of a failure depends on how much it asks for: one that stops in time never meets
it.

A decoder sees its input in pieces.  A request is granted what there is to make of the piece at
hand, and only one that would get nothing has the decoder go on to the next piece.  But a piece may
be used up while bytes made of it still wait to be handed out; the request that begins with those
bytes goes on with the next piece.
-/

namespace GameArchive

/-- Why the reading of a compressed stream stops before its end. -/
inductive Stop where
  /-- The input ran out. -/
  | exhausted
  /-- The input is corrupt; `early` tells whether this shows before more output is asked for. -/
  | corrupt (early : Bool)
  deriving Repr, DecidableEq

inductive Ending where
  /-- Nothing is missing. -/
  | finished
  /-- The input ran out.  All bytes are handed out, and the next request fails. -/
  | cutOff
  /-- A check at the end failed.  All bytes are handed out, and the next request fails. -/
  | rejected
  /-- The input is corrupt.  The request that meets the fault gets nothing.  An `early` fault is
  met by the request that reaches the last byte, any other by one that asks for more. -/
  | broken (early : Bool)
  deriving Repr, DecidableEq

/-- The turn of a decoder from one piece of its input to the next. -/
structure Turn where
  /-- How many bytes are out when the last byte of the piece has been taken. -/
  spent : Nat
  /-- How many bytes are made when the first byte of the next piece is taken. -/
  reached : Nat
  deriving Repr, DecidableEq

/-- Where the first request begins that sees the next piece, when requests of a size are made from
`start` on.  It is the first one that finds the piece used up, or the first that gets nothing. -/
def Turn.settle (turn : Turn) (requestSize start : Nat) : Nat :=
  let requests := (turn.spent - start + requestSize - 1) / requestSize
  min turn.reached (start + max 1 requests * requestSize)

/-- The bytes that a decoder hands out, and how that ends. -/
structure Delivery where
  bytes : Bytes
  /-- The turns from piece to piece of the input. -/
  turns : List Turn
  ending : Ending
  deriving Repr, DecidableEq

namespace Delivery

def ready (bytes : Bytes) : Delivery where
  bytes := bytes
  turns := []
  ending := .finished

def failing (bytes : Bytes) : Delivery where
  bytes := bytes
  turns := []
  ending := .rejected

/-- The number of bytes in one request of a copy. -/
def requestSize : Nat := 8192

/-- Where the first request begins that sees the last piece of the input, when all requests have the
given size.  No earlier request meets a fault in that piece. -/
def settled (delivery : Delivery) (requestSize : Nat) : Nat :=
  delivery.turns.foldl (fun start turn => turn.settle requestSize start) 0

/-- How many bytes can be received in requests of the given size, of which the last one may be
smaller. -/
def reach (delivery : Delivery) (requestSize : Nat) : Nat :=
  match delivery.ending with
  | .broken true => max (delivery.settled requestSize) (delivery.bytes.length - 1)
  | _ => delivery.bytes.length

/-- The bytes that a reader receives that asks for single bytes. -/
def steady (delivery : Delivery) : Bytes :=
  delivery.bytes.take (delivery.reach 1)

/-- What a reader of at most `count` bytes receives, or `none` when it meets a failure. -/
def take? (delivery : Delivery) (count : Nat) : Option Bytes :=
  if count ≤ delivery.reach requestSize then some (delivery.bytes.take count)
  else
    match delivery.ending with
    | .finished => some delivery.bytes
    | _ => none

/-- What a reader of everything receives, or `none` when it meets a failure. -/
def all? (delivery : Delivery) : Option Bytes :=
  match delivery.ending with
  | .finished => some delivery.bytes
  | _ => none

/-- How many bytes a copy by full requests has passed on when it ends. -/
def copiedLength (delivery : Delivery) : Nat :=
  match delivery.ending with
  | .finished | .cutOff | .rejected => delivery.bytes.length
  | .broken _ =>
      let settled := delivery.settled requestSize
      let requests := (delivery.reach requestSize - settled) / requestSize
      settled + requests * requestSize

/-- The bytes that a copy by full requests has passed on when it ends. -/
def copied (delivery : Delivery) : Bytes :=
  delivery.bytes.take delivery.copiedLength

end Delivery
end GameArchive
