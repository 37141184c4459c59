/-!
# Byte strings

The contents of files and of parts of files are lists of bytes, first byte first.  A declared
length is only a claim about what follows, so every reader of a fixed number of bytes says
whether the bytes were there.

Numbers inside a container are little-endian.  `LittleEndian.encode` writes exactly `width`
bytes and `LittleEndian.decode` reads back whatever number of bytes it is given.
-/

namespace GameArchive

/-- The contents of a file or of a part of one, first byte first. -/
abbrev Bytes := List UInt8

namespace Bytes

/-- The window of at most `length` bytes that starts at `offset`. -/
def window (bytes : Bytes) (offset length : Nat) : Bytes :=
  (bytes.drop offset).take length

/-- Exactly `count` leading bytes and what follows them, when that many are there. -/
def split? (count : Nat) (bytes : Bytes) : Option (Bytes × Bytes) :=
  if count ≤ bytes.length then some (bytes.take count, bytes.drop count) else none

/-- The pieces of `size` bytes, or fewer at the end, that make up a byte string.  A piece takes a
byte at least, so as many steps as there are bytes are enough. -/
def piecesWithin (size : Nat) : (fuel : Nat) → Bytes → List Bytes
  | 0, _ => []
  | fuel + 1, bytes =>
      if bytes.isEmpty then [] else bytes.take size :: piecesWithin size fuel (bytes.drop size)

/-- The pieces of `size` bytes, or fewer at the end, that make up a byte string. -/
def pieces (size : Nat) (bytes : Bytes) : List Bytes :=
  piecesWithin size bytes.length bytes

def zeros (count : Nat) : Bytes :=
  List.replicate count 0

/-- What holds of the 256 numbers below the bound of a byte holds of every byte. -/
@[elab_as_elim]
theorem forall_byte {P : UInt8 → Prop} (all : ∀ number < 256, P (UInt8.ofNat number))
    (byte : UInt8) : P byte := by
  have here := all byte.toNat byte.toNat_lt
  rwa [UInt8.ofNat_toNat] at here

theorem split?_append (first rest : Bytes) :
    split? first.length (first ++ rest) = some (first, rest) := by
  simp [split?]

theorem split?_eq_some {count : Nat} {bytes first rest : Bytes} :
    split? count bytes = some (first, rest) ↔
      bytes = first ++ rest ∧ first.length = count := by
  constructor
  · intro found
    unfold split? at found
    split at found
    · next enough =>
        simp only [Option.some.injEq, Prod.mk.injEq] at found
        obtain ⟨rfl, rfl⟩ := found
        exact ⟨(List.take_append_drop count bytes).symm, List.length_take_of_le enough⟩
    · simp at found
  · rintro ⟨rfl, rfl⟩
    exact split?_append first rest

end Bytes

namespace LittleEndian

/-- The `width` low bytes of `value`, least significant first. -/
def encode : (width : Nat) → (value : Nat) → Bytes
  | 0, _ => []
  | width + 1, value => UInt8.ofNat value :: encode width (value / 256)

/-- How many numbers have `width` bytes. -/
def bound : (width : Nat) → Nat
  | 0 => 1
  | width + 1 => 256 * bound width

/-- The number whose bytes are given, least significant first. -/
def decode : Bytes → Nat
  | [] => 0
  | byte :: rest => byte.toNat + 256 * decode rest

@[simp] theorem length_encode (width value : Nat) : (encode width value).length = width := by
  induction width generalizing value with
  | zero => rfl
  | succ width ih => simp [encode, ih]

theorem decode_encode (width value : Nat) :
    decode (encode width value) = value % bound width := by
  induction width generalizing value with
  | zero => simp [encode, decode, bound, Nat.mod_one]
  | succ width ih =>
      rw [encode, decode, ih, bound, Nat.mod_mul]
      simp

theorem decode_lt (bytes : Bytes) : decode bytes < bound bytes.length := by
  induction bytes with
  | nil => simp [decode, bound]
  | cons byte rest ih =>
      have small := byte.toNat_lt
      rw [decode, List.length_cons, bound]
      omega

theorem encode_decode (bytes : Bytes) : encode bytes.length (decode bytes) = bytes := by
  induction bytes with
  | nil => rfl
  | cons byte rest ih =>
      have small := byte.toNat_lt
      have low : UInt8.ofNat (byte.toNat + 256 * decode rest) = byte := by
        apply UInt8.toNat_inj.1
        rw [UInt8.toNat_ofNat']
        omega
      have high : (byte.toNat + 256 * decode rest) / 256 = decode rest := by omega
      rw [List.length_cons, decode, encode, low, high, ih]

/-- The number in the next `width` bytes, and what follows it. -/
def read? (width : Nat) (bytes : Bytes) : Option (Nat × Bytes) :=
  (bytes.split? width).map fun (field, rest) => (decode field, rest)

theorem read?_encode_append {width value : Nat} (fits : value < bound width) (rest : Bytes) :
    read? width (encode width value ++ rest) = some (value, rest) := by
  have cut := Bytes.split?_append (encode width value) rest
  rw [length_encode] at cut
  simp [read?, cut, decode_encode, Nat.mod_eq_of_lt fits]

end LittleEndian

namespace Bytes

def word16? (bytes : Bytes) : Option (UInt16 × Bytes) :=
  (LittleEndian.read? 2 bytes).map fun (value, rest) => (UInt16.ofNat value, rest)

def word32? (bytes : Bytes) : Option (UInt32 × Bytes) :=
  (LittleEndian.read? 4 bytes).map fun (value, rest) => (UInt32.ofNat value, rest)

def word64? (bytes : Bytes) : Option (UInt64 × Bytes) :=
  (LittleEndian.read? 8 bytes).map fun (value, rest) => (UInt64.ofNat value, rest)

def ofWord16 (word : UInt16) : Bytes :=
  LittleEndian.encode 2 word.toNat

def ofWord32 (word : UInt32) : Bytes :=
  LittleEndian.encode 4 word.toNat

def ofWord64 (word : UInt64) : Bytes :=
  LittleEndian.encode 8 word.toNat

@[simp] theorem length_ofWord16 (word : UInt16) : (ofWord16 word).length = 2 :=
  LittleEndian.length_encode 2 _

@[simp] theorem length_ofWord32 (word : UInt32) : (ofWord32 word).length = 4 :=
  LittleEndian.length_encode 4 _

@[simp] theorem length_ofWord64 (word : UInt64) : (ofWord64 word).length = 8 :=
  LittleEndian.length_encode 8 _

theorem word16?_ofWord16_append (word : UInt16) (rest : Bytes) :
    word16? (ofWord16 word ++ rest) = some (word, rest) := by
  have fits : word.toNat < LittleEndian.bound 2 := word.toNat_lt
  simp [word16?, ofWord16, LittleEndian.read?_encode_append fits]

theorem word32?_ofWord32_append (word : UInt32) (rest : Bytes) :
    word32? (ofWord32 word ++ rest) = some (word, rest) := by
  have fits : word.toNat < LittleEndian.bound 4 := word.toNat_lt
  simp [word32?, ofWord32, LittleEndian.read?_encode_append fits]

theorem word64?_ofWord64_append (word : UInt64) (rest : Bytes) :
    word64? (ofWord64 word ++ rest) = some (word, rest) := by
  have fits : word.toNat < LittleEndian.bound 8 := word.toNat_lt
  simp [word64?, ofWord64, LittleEndian.read?_encode_append fits]

end Bytes

end GameArchive
