import GameArchive.Ba2.Archive
import GameArchive.Bethesda.State
import GameArchive.Signature
import GameArchive.Tes3.Archive
import GameArchive.Tes4.Archive

/-!
# Archives of any layout

An archive is opened in the layout that its signature tells.  Its entries have a path, a size,
contents, and a state.
-/

namespace GameArchive
namespace Bethesda

inductive Archive where
  | tes4 (archive : Tes4.Archive)
  | tes3 (archive : Tes3.Archive)
  | ba2 (archive : Ba2.Archive)
  deriving Repr, DecidableEq

inductive File where
  | tes4 (archive : Tes4.Archive) (file : Tes4.FileRecord)
  | tes3 (archive : Tes3.Archive) (file : Tes3.FileState)
  | ba2 (archive : Ba2.Archive) (file : Ba2.File)
  deriving Repr, DecidableEq

namespace Archive

def openAs (kind : ContainerKind) (source : Source) : Except ExtractError Archive :=
  match kind with
  | .bsa => (Tes4.Archive.open source).map .tes4
  | .tes3 => (Tes3.Archive.open source).map .tes3
  | .ba2 => (Ba2.Archive.open source).map .ba2
  | kind => .error (.invalidFormat source.name (.notBethesda kind.label))

/-- Opens an archive in the layout that its signature tells. -/
def openDetected (source : Source) : Except ExtractError Archive :=
  match (ContainerKind.sniff (Stream.ofBytes source.bytes)).1 with
  | some kind => openAs kind source
  | none => .error (.invalidFormat source.name (.unknownFormat source.name))

def source : Archive → Source
  | tes4 archive => archive.source
  | tes3 archive => archive.source
  | ba2 archive => archive.source

def withSource (archive : Archive) (source : Source) : Archive :=
  match archive with
  | tes4 archive => tes4 { archive with source }
  | tes3 archive => tes3 { archive with source }
  | ba2 archive => ba2 { archive with source }

def name (archive : Archive) : String :=
  archive.source.name

def state : Archive → State
  | tes4 archive => .tes4 archive.state
  | tes3 archive => .tes3 archive.state
  | ba2 archive => .ba2 archive.state

/-- The entries, in the order of their records. -/
def files : Archive → Except ExtractError (List File)
  | tes4 archive => archive.files.map fun files => files.map (.tes4 archive)
  | tes3 archive => .ok (archive.files.map (.tes3 archive))
  | ba2 archive => .ok (archive.files.map (.ba2 archive))

end Archive

namespace File

def path : File → String
  | tes4 _ file => file.path
  | tes3 _ file => file.path
  | ba2 _ file => file.state.path

def size : File → Except ExtractError Nat
  | tes4 archive file => archive.size file
  | tes3 _ file => .ok file.size.toNat
  | ba2 _ file => .ok file.unpackedSize

def state : File → FileState
  | tes4 _ file => .tes4 file.state
  | tes3 _ file => .tes3 file
  | ba2 _ file => .ba2 file.state

def contents [Codecs] : File → Except ExtractError Bytes
  | tes4 archive file => archive.contents file
  | tes3 archive file => archive.contents file
  | ba2 archive file => archive.contents file

end File
end Bethesda
end GameArchive
