import GameArchive.Ba2.Basic
import GameArchive.Json.Fields
import GameArchive.Tes3.Basic
import GameArchive.Tes4.Basic

/-!
# Archive states

A state holds what is needed to build an archive, or an entry of one, again.  States of the three
layouts are written in JSON as records whose tag `format` names the layout.
-/

namespace GameArchive
namespace Bethesda

/-- What is needed to write the header of an archive again. -/
inductive State where
  | tes4 (state : Tes4.State)
  | tes3 (state : Tes3.State)
  | ba2 (state : Ba2.State)
  deriving Repr, DecidableEq

/-- What is needed to write an entry again. -/
inductive FileState where
  | tes4 (state : Tes4.FileState)
  | tes3 (state : Tes3.FileState)
  | ba2 (state : Ba2.FileState)
  deriving Repr, DecidableEq

/-- The tag that names the layout of a state. -/
def formatTag : String := "format"

def versionName : Tes4.Version → String
  | .tes4 => "Tes4"
  | .fo3 => "Fo3"
  | .sse => "Sse"

def versionOfName? (name : String) : Option Tes4.Version :=
  if name = "Tes4" then some .tes4
  else if name = "Fo3" then some .fo3
  else if name = "Sse" then some .sse
  else none

namespace State

def toJson : State → Json
  | tes4 state => Json.record [
      (formatTag, .ofString "Bsa"),
      ("magic", .ofString state.magic),
      ("version", .ofString (versionName state.version)),
      ("archive_flags", .ofNat state.archiveFlags.toNat),
      ("file_flags", .ofNat state.fileFlags.toNat)]
  | tes3 state => Json.record [
      (formatTag, .ofString "Tes3"),
      ("version_number", .ofNat state.versionNumber.toNat),
      ("file_count", .ofNat state.fileCount.toNat),
      ("data_offset", .ofNat state.dataOffset.toNat),
      ("hash_offset", .ofNat state.hashOffset.toNat)]
  | ba2 state => Json.record [
      (formatTag, .ofString "Ba2"),
      ("version", .ofNat state.version.toNat),
      ("header_magic", .ofString state.magic),
      ("kind", .ofString state.kind),
      ("has_name_table", .boolean state.hasNameTable),
      ("unk1", .ofNat state.extra1.toNat),
      ("unk2", .ofNat state.extra2.toNat),
      ("compression", .ofNat state.compression.toNat)]

def tes4OfFields? (fields : Json.Fields) : Option State := do
  match ← fields.values? ["magic", "version", "archive_flags", "file_flags"] with
  | [magic, version, archiveFlags, fileFlags] =>
      pure (.tes4 {
        magic := ← magic.text?
        version := ← version.choice?.bind versionOfName?
        archiveFlags := ← archiveFlags.word32?
        fileFlags := ← fileFlags.word32? })
  | _ => none

def tes3OfFields? (fields : Json.Fields) : Option State := do
  match ← fields.values? ["version_number", "file_count", "data_offset", "hash_offset"] with
  | [versionNumber, fileCount, dataOffset, hashOffset] =>
      pure (.tes3 {
        versionNumber := ← versionNumber.word32?
        fileCount := ← fileCount.word32?
        dataOffset := ← dataOffset.word64?
        hashOffset := ← hashOffset.word32? })
  | _ => none

def ba2OfFields? (fields : Json.Fields) : Option State := do
  match ← fields.values? [
      "version", "header_magic", "kind", "has_name_table", "unk1", "unk2", "compression"] with
  | [version, magic, kind, hasNameTable, extra1, extra2, compression] =>
      pure (.ba2 {
        version := ← version.word32?
        magic := ← magic.text?
        kind := ← kind.text?
        hasNameTable := ← hasNameTable.boolean?
        extra1 := ← extra1.word32?
        extra2 := ← extra2.word32?
        compression := ← compression.word32? })
  | _ => none

def ofJson? (value : Json) : Option State := do
  let (kind, fields) ← value.tagged? formatTag
  if kind = "Bsa" then tes4OfFields? fields
  else if kind = "Tes3" then tes3OfFields? fields
  else if kind = "Ba2" then ba2OfFields? fields
  else none

end State

namespace FileState

def path : FileState → String
  | tes4 state => state.path
  | tes3 state => state.path
  | ba2 state => state.path

/-- The position of an entry in its table. -/
def index : FileState → Nat
  | tes4 state => state.index
  | tes3 state => state.index
  | ba2 state => state.index

def toJson : FileState → Json
  | tes4 state => Json.record [
      (formatTag, .ofString "Bsa"),
      ("path", .ofString state.path),
      ("index", .ofNat state.index),
      ("flip_compression", .boolean state.flipCompression)]
  | tes3 state => Json.record [
      (formatTag, .ofString "Tes3"),
      ("path", .ofString state.path),
      ("index", .ofNat state.index),
      ("size", .ofNat state.size.toNat),
      ("offset", .ofNat state.offset.toNat),
      ("name_offset", .ofNat state.nameOffset.toNat),
      ("hash1", .ofNat state.hash1.toNat),
      ("hash2", .ofNat state.hash2.toNat)]
  | ba2 state => Json.record [
      (formatTag, .ofString "Ba2"),
      ("path", .ofString state.path),
      ("index", .ofNat state.index),
      ("name_hash", .ofNat state.nameHash.toNat),
      ("extension", .ofString state.extension),
      ("dir_hash", .ofNat state.dirHash.toNat),
      ("flags", .ofNat state.flags.toNat),
      ("align", .ofNat state.align.toNat),
      ("compressed", .boolean state.compressed)]

def tes4OfFields? (fields : Json.Fields) : Option FileState := do
  match ← fields.values? ["path", "index", "flip_compression"] with
  | [path, index, flipCompression] =>
      pure (.tes4 {
        path := ← path.text?
        index := ← index.natural? UInt64.size
        flipCompression := ← flipCompression.boolean? })
  | _ => none

def tes3OfFields? (fields : Json.Fields) : Option FileState := do
  match ← fields.values? [
      "path", "index", "size", "offset", "name_offset", "hash1", "hash2"] with
  | [path, index, size, offset, nameOffset, hash1, hash2] =>
      pure (.tes3 {
        path := ← path.text?
        index := ← index.natural? UInt64.size
        size := ← size.word32?
        offset := ← offset.word32?
        nameOffset := ← nameOffset.word32?
        hash1 := ← hash1.word32?
        hash2 := ← hash2.word32? })
  | _ => none

def ba2OfFields? (fields : Json.Fields) : Option FileState := do
  match ← fields.values? [
      "path", "index", "name_hash", "extension", "dir_hash", "flags", "align",
      "compressed"] with
  | [path, index, nameHash, extension, dirHash, flags, align, compressed] =>
      pure (.ba2 {
        path := ← path.text?
        index := ← index.natural? UInt64.size
        nameHash := ← nameHash.word32?
        extension := ← extension.text?
        dirHash := ← dirHash.word32?
        flags := ← flags.word32?
        align := ← align.word32?
        compressed := ← compressed.boolean? })
  | _ => none

def ofJson? (value : Json) : Option FileState := do
  let (kind, fields) ← value.tagged? formatTag
  if kind = "Bsa" then tes4OfFields? fields
  else if kind = "Tes3" then tes3OfFields? fields
  else if kind = "Ba2" then ba2OfFields? fields
  else none

end FileState
end Bethesda
end GameArchive
