import GameArchive.Ba2.Builder
import GameArchive.Bethesda.Archive
import GameArchive.Tes3.Builder
import GameArchive.Tes4.Builder

/-!
# Building archives of any layout

A builder takes only entries of its own layout.  Rebuilding an archive builds another one from
its state and its entries.
-/

namespace GameArchive
namespace Bethesda

/-- An archive that is being put together. -/
inductive Builder where
  | tes4 (builder : Tes4.Builder)
  | tes3 (builder : Tes3.Builder)
  | ba2 (builder : Ba2.Builder)
  deriving Repr, DecidableEq

namespace Builder

def create (archive : String) : State → Except ExtractError Builder
  | .tes4 state => (Tes4.Builder.create archive state).map .tes4
  | .tes3 state => .ok (.tes3 (Tes3.Builder.create archive state))
  | .ba2 state => (Ba2.Builder.create archive state).map .ba2

def add [Codecs] : Builder → FileState → Bytes → Except ExtractError Builder
  | tes4 builder, .tes4 state, contents => .ok (.tes4 (builder.add state contents))
  | tes3 builder, .tes3 state, contents => .ok (.tes3 (builder.add state contents))
  | ba2 builder, .ba2 state, contents => .ok (.ba2 (builder.add state contents))
  | _, state, _ => .error (.invalidFormat state.path .mismatchedState)

def count : Builder → Nat
  | tes4 builder => builder.files.length
  | tes3 builder => builder.files.length
  | ba2 builder => builder.files.length

/-- The bytes of the archive, where `arrange` tells in which order the folders of a TES4-family
archive are taken from their table. -/
def buildArranged [Codecs] (arrange : List Tes4.Group → List Tes4.Group) :
    Builder → Except ExtractError Bytes
  | tes4 builder => builder.buildArranged arrange
  | tes3 builder => builder.build
  | ba2 builder => builder.build

def build [Codecs] (builder : Builder) : Except ExtractError Bytes :=
  builder.buildArranged id

def addFiles [Codecs] (builder : Builder) : List File → Except ExtractError Builder
  | [] => .ok builder
  | file :: files => do
      let contents ← file.contents
      let builder ← builder.add file.state contents
      builder.addFiles files

end Builder

/-- The number of entries of an archive, and the bytes of one built from its state and entries;
`arrange` is the order in which folders are taken from their table. -/
def Archive.rebuildArranged [Codecs] (arrange : List Tes4.Group → List Tes4.Group)
    (archive : Archive) : Except ExtractError (Nat × Bytes) := do
  let builder ← Builder.create archive.name archive.state
  let files ← archive.files
  let builder ← builder.addFiles files
  let bytes ← builder.buildArranged arrange
  pure (files.length, bytes)

/-- The number of entries of an archive, and the bytes of one built from its state and entries. -/
def Archive.rebuild [Codecs] (archive : Archive) : Except ExtractError (Nat × Bytes) :=
  archive.rebuildArranged id

end Bethesda
end GameArchive
