import GameArchive.Bethesda.Archive
import GameArchive.Btar.Reader
import GameArchive.FileTree
import GameArchive.Window

/-!
# Extracted entries

Whatever an entry was extracted from, it has a path and a time, it can be opened any number of
times, and its contents can be put into a file.  Every opening gives a handle of its own.
-/

namespace GameArchive

/-- A readable view of the contents of an entry. -/
inductive Handle where
  /-- The contents lie ready. -/
  | whole (stream : Stream)
  | part (window : Window)
  deriving Repr, DecidableEq

namespace Handle

/-- Reads until `count` bytes are there or the contents end. -/
def read (handle : Handle) (count : Nat) : Bytes × Handle :=
  match handle with
  | whole stream =>
      let (bytes, stream) := stream.readFully (stream.bytes.length + 1) count
      (bytes, whole stream)
  | part window =>
      let (bytes, window) := window.readFully (window.inner.bytes.length + 1) count
      (bytes, part window)

def seek (handle : Handle) (origin : SeekOrigin) : Except IoError Handle :=
  match handle with
  | whole stream => (stream.seek origin).map whole
  | part window => (window.seek origin).map part

def position : Handle → UInt64
  | whole stream => stream.position
  | part window => window.position

/-- A number of bytes that is not less than what there is to read. -/
def bound : Handle → Nat
  | whole stream => stream.bytes.length
  | part window => window.inner.bytes.length

def rest (handle : Handle) : Bytes :=
  (handle.read handle.bound).1

end Handle

inductive Entry where
  | native (path : String) (location : Location)
  /-- An entry of a game archive that was last changed at the second `modified`. -/
  | bethesda (file : Bethesda.File) (modified : Nat)
  /-- A record of a BTAR that was last changed at the second `modified`. -/
  | btar (source : Source) (record : Btar.Record) (modified : Nat)
  deriving Repr, DecidableEq

namespace Entry

def path : Entry → String
  | native path _ => path
  | bethesda file _ => file.path
  | btar _ record _ => record.name

/-- The second of the last change.  Files in a tree have no times and count from the start. -/
def modified : Entry → Nat
  | native .. => 0
  | bethesda _ modified | btar _ _ modified => modified

/-- Whether the contents can be put into a file without opening the entry. -/
def canMove : Entry → Bool
  | native .. | btar .. => true
  | bethesda .. => false

def unpack (file : Bethesda.File) : Except ExtractError Bytes := do
  let _ ← file.size
  file.contents

def handle (entry : Entry) (tree : FileTree) : Except ExtractError Handle :=
  match entry with
  | native path location =>
      match tree.readFile location with
      | .ok bytes => .ok (.whole (.ofFile bytes))
      | .error failure => .error (.io path failure)
  | bethesda file _ => (unpack file).map fun bytes => .whole (.ofBytes bytes)
  | btar source record _ =>
      .ok (.part (.ofStream (.ofBytes source.bytes) (UInt64.ofNat record.offset)
        (UInt64.ofNat record.length)))

/-- Puts the contents of an entry into a file at a path that is read from a directory; creates
the directories above the file.  A record that turns out to be cut off leaves what there is of
it. -/
def moveTo (entry : Entry) (base : Location) (target : String) :
    EStateM ExtractError FileTree Unit :=
  match entry with
  | native path location =>
      ExtractError.onBehalfOf path do
        let target ← FileTree.prepareFile base target
        FileTree.moveFile location target
  | bethesda file _ => do
      let target ← ExtractError.onBehalfOf file.path (FileTree.prepareFile base target)
      match unpack file with
      | .error failure => throw failure
      | .ok bytes => ExtractError.onBehalfOf file.path (FileTree.writeFile target bytes)
  | btar source record _ => do
      let bytes := source.bytes.window record.offset record.length
      ExtractError.onBehalfOf source.name do
        let target ← FileTree.prepareFile base target
        FileTree.writeFile target bytes
      if bytes.length < record.length then
        throw (.truncated source.name (some record.name) record.length bytes.length)

end Entry
end GameArchive
