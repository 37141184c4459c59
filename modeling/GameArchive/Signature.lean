import GameArchive.Stream

/-!
# Container signatures

A container is known by its first bytes.  The first entry of the table that begins the file
decides, and a longer signature stands before one that it extends.
-/

namespace GameArchive

inductive ContainerKind where
  | tes3
  | bsa
  | ba2
  | btar
  | zip
  | rarOld
  | rarNew
  | sevenZip
  deriving Repr, DecidableEq

namespace ContainerKind

def label : ContainerKind → String
  | tes3 => "TES3"
  | bsa => "BSA"
  | ba2 => "BA2"
  | btar => "BTAR"
  | zip => "ZIP"
  | rarOld => "RAR_OLD"
  | rarNew => "RAR_NEW"
  | sevenZip => "7Z"

/-- Whether a container of this kind is left to the external archiver. -/
def isGeneral : ContainerKind → Bool
  | zip | rarOld | rarNew | sevenZip => true
  | tes3 | bsa | ba2 | btar => false

/-- The kinds with the bytes that begin their containers, in the order in which they are tried. -/
def signatures : List (ContainerKind × Bytes) := [
  (rarNew, [0x52, 0x61, 0x72, 0x21, 0x1A, 0x07, 0x01, 0x00]),
  (rarOld, [0x52, 0x61, 0x72, 0x21, 0x1A, 0x07, 0x00]),
  (sevenZip, [0x37, 0x7A, 0xBC, 0xAF, 0x27, 0x1C]),
  (zip, [0x50, 0x4B, 0x03, 0x04]),
  (zip, [0x50, 0x4B, 0x05, 0x06]),
  (zip, [0x50, 0x4B, 0x07, 0x08]),
  (bsa, [0x42, 0x53, 0x41, 0x00]),
  (ba2, [0x42, 0x54, 0x44, 0x58]),
  (btar, [0x42, 0x54, 0x41, 0x52]),
  (tes3, [0x00, 0x01, 0x00, 0x00])]

def longestSignature : Nat := 8

def ofBytes? (head : Bytes) : Option ContainerKind :=
  (signatures.find? fun (_, signature) => signature.isPrefixOf head).map fun (kind, _) => kind

/-- The kind of the container that a stream holds at its position, and the stream at the same
position. -/
def sniff (stream : Stream) : Option ContainerKind × Stream :=
  let (head, read) := stream.readFully longestSignature longestSignature
  (ofBytes? head, { read with position := stream.position })

end ContainerKind
end GameArchive
