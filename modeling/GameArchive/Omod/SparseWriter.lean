import GameArchive.FileTree
import GameArchive.Omod.Format

/-!
# Cutting a payload into files

A payload is every listed file after the other.  The writer takes it in pieces of any size and
fills the files in order.  A file is created when the first byte of it arrives, together with the
empty files in front of it; empty files after the last byte are created when the writing ends.
A file with an unsafe name is written to a quarantine file that is not reported.
-/

namespace GameArchive
namespace Omod

structure WrittenFile where
  /-- The name in its archive form. -/
  name : String
  /-- The native path below the destination. -/
  path : String
  deriving Repr, DecidableEq

structure OpenFile where
  file : ListedFile
  location : Location
  /-- The number of bytes that are still to come. -/
  remaining : Nat
  deriving Repr, DecidableEq

structure SparseWriter where
  archive : String
  destination : Location
  /-- The files that are not yet created, with their positions in the list. -/
  pending : List (Nat × ListedFile)
  current : Option OpenFile
  written : List WrittenFile
  tree : FileTree
  deriving Repr, DecidableEq

/-- The files of a list with their positions, of which the first is `index`. -/
def numbered (index : Nat) : List ListedFile → List (Nat × ListedFile)
  | [] => []
  | file :: files => (index, file) :: numbered (index + 1) files

/-- The number of bytes that fill the files of a list, as a word of 64 bits. -/
def declaredLength (files : List ListedFile) : Nat :=
  files.foldr (fun file total => file.length + total) 0 % UInt64.size

namespace SparseWriter

def start (archive : String) (destination : Location) (files : List ListedFile)
    (tree : FileTree) : SparseWriter where
  archive := archive
  destination := destination
  pending := numbered 0 files
  current := none
  written := []
  tree := tree

/-- The path below the destination to which a file is written. -/
def targetPath (index : Nat) (file : ListedFile) : String :=
  if Path.isSafe file.name then Path.toNative file.name
  else "IllegalFile_" ++ toString index

def create (location : Location) : EStateM IoError SparseWriter Unit := fun writer =>
  let action : EStateM IoError FileTree Unit := do
    FileTree.createDirectories location.dropLast
    FileTree.writeFile location []
  match action writer.tree with
  | .ok _ tree => .ok () { writer with tree }
  | .error failure tree => .error failure { writer with tree }

/-- Creates the next file that is not empty, and the empty files in front of it; tells whether
there was one. -/
def openNext : List (Nat × ListedFile) → EStateM IoError SparseWriter Bool
  | [] => pure false
  | (index, file) :: rest => do
      let path := targetPath index file
      let location := Location.resolve (← get).destination path
      modify fun writer => { writer with pending := rest }
      create location
      if Path.isSafe file.name then
        modify fun writer =>
          { writer with written := writer.written ++ [⟨Path.toArchive file.name, path⟩] }
      if file.length = 0 then
        openNext rest
      else do
        modify fun writer => { writer with current := some ⟨file, location, file.length⟩ }
        pure true

/-- The file that takes the next byte. -/
def currentFile : EStateM IoError SparseWriter OpenFile := do
  match (← get).current with
  | some file => pure file
  | none => do
      let _ ← openNext (← get).pending
      match (← get).current with
      | some file => pure file
      | none => throw (.surplusData (← get).archive)

/-- Writes a piece of the payload into one file; tells how many bytes were taken. -/
def write (bytes : Bytes) : EStateM IoError SparseWriter Nat := do
  if bytes.isEmpty then
    pure 0
  else
    let file ← currentFile
    let taken := bytes.take file.remaining
    let remaining := file.remaining - taken.length
    modify fun writer => {
      writer with
      tree := writer.tree.append file.location taken
      current := if remaining = 0 then none else some { file with remaining } }
    pure taken.length

/-- Writes a whole piece.  Every write takes one byte at least, so as many writes as there are
bytes are enough. -/
def writeWithin : (fuel : Nat) → Bytes → EStateM IoError SparseWriter Unit
  | 0, _ => pure ()
  | fuel + 1, bytes => do
      if bytes.isEmpty then
        pure ()
      else
        let taken ← write bytes
        writeWithin fuel (bytes.drop taken)

def writeAll (bytes : Bytes) : EStateM IoError SparseWriter Unit :=
  writeWithin bytes.length bytes

/-- The failure of a payload that ends before a file is full. -/
def underrun (writer : SparseWriter) (file : ListedFile) : ExtractError :=
  .omodUnderrun writer.archive file.name

/-- Creates the files after the last byte, which have to be empty.  Every step creates a file, so
as many steps as there are files are enough. -/
def createRest : (fuel : Nat) → SparseWriter → Except ExtractError Unit × SparseWriter
  | 0, writer => (.ok (), writer)
  | fuel + 1, writer =>
      match writer.pending with
      | [] => (.ok (), writer)
      | (_, file) :: _ =>
          if file.length ≠ 0 then
            (.error (writer.underrun file), writer)
          else
            match openNext writer.pending writer with
            | .ok _ writer => createRest fuel writer
            | .error failure writer => (.error (.io writer.archive failure), writer)

/-- Ends the writing: checks that no byte is missing, and gives the files that were written. -/
def finish (writer : SparseWriter) : Except ExtractError (List WrittenFile) × SparseWriter :=
  match writer.current with
  | some file => (.error (writer.underrun file.file), writer)
  | none =>
      let (outcome, writer) := createRest writer.pending.length writer
      (outcome.map fun _ => writer.written, writer)

end SparseWriter
end Omod
end GameArchive
