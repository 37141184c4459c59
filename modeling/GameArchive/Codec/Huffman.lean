import GameArchive.Codec.BitSource
import GameArchive.Codec.Delivery

/-!
# Canonical prefix codes

A canonical code is fixed by the lengths of its code words: shorter words come first, and words
of one length are in the order of their symbols.  A set of lengths must use up the whole code
space, except that a code may have no word at all, or a single word of one bit where the format
allows it.
-/

namespace GameArchive

/-- A reader of bits.  A reader that fails tells how far it came. -/
abbrev BitReader := EStateM Stop BitSource

namespace BitReader

def number (width : Nat) : BitReader Nat := fun source =>
  match source.number? width with
  | some (value, source) => .ok value source
  | none => .error .exhausted source

/-- Passes over the rest of a byte of which some bits were read. -/
def align : BitReader Unit := fun source =>
  .ok () source.align

def require (condition : Bool) : BitReader Unit :=
  if condition then pure () else throw (.corrupt true)

end BitReader

/-- A canonical prefix code. -/
structure Huffman where
  /-- The numbers of words of one bit, two bits, and so on up to the longest words. -/
  counts : List Nat
  symbols : Array Nat

namespace Huffman

/-- The code of which both words of one bit stand for the symbol zero. -/
def blank : Huffman where
  counts := [2]
  symbols := #[0, 0]

def maximumLength : Nat := 15

def symbolsOfLength (lengths : List Nat) (length : Nat) : List Nat :=
  (lengths.zipIdx.filter fun (found, _) => found == length).map Prod.snd

def longest (lengths : List Nat) : Nat :=
  lengths.foldl max 0

/-- The room that is left after the words of the given counts, measured in words of the last
length; `none` when there are more words than room. -/
def roomLeft? (counts : List Nat) : Option Nat :=
  counts.foldl
    (fun room count => room.bind fun room =>
      if count ≤ 2 * room then some (2 * room - count) else none)
    (some 1)

/-- The code with words of the given lengths, where zero stands for no word.  `lonely` allows a
single word of one bit. -/
def ofLengths? (lonely : Bool) (lengths : List Nat) : Option Huffman :=
  let top := longest lengths
  let byLength := (List.range top).map fun index => symbolsOfLength lengths (index + 1)
  let counts := byLength.map List.length
  if top = 0 then
    some ⟨[0], #[]⟩
  else
    match roomLeft? counts with
    | none => none
    | some room =>
        if room = 0 ∨ (lonely ∧ top = 1) then some ⟨counts, byLength.flatten.toArray⟩ else none

/-- Reads the rest of a word.  `value` holds the bits read so far, `first` the first word of the
current length and `index` the number of shorter words. -/
def readFrom (symbols : Array Nat) :
    (counts : List Nat) → (value first index : Nat) → BitReader Nat
  | [], _, _, _ => throw (.corrupt true)
  | count :: counts, value, first, index => do
      let bit ← BitReader.number 1
      let word := value + bit
      if word < first + count then
        pure (symbols.getD (index + (word - first)) 0)
      else
        readFrom symbols counts (2 * word) (2 * (first + count)) (index + count)

/-- Reads a word and gives its symbol. -/
def read (code : Huffman) : BitReader Nat :=
  readFrom code.symbols code.counts 0 0 0

end Huffman
end GameArchive
