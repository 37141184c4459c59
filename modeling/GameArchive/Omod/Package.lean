import GameArchive.Codec.Lzma
import GameArchive.Omod.SparseWriter
import GameArchive.Reading
import GameArchive.Zip.Reader

/-!
# OMOD packages

A package is a zip container with a configuration, a file list and payload for data, and perhaps
a file list and payload for plugins.  A payload is a bare LZMA stream after its properties, or a
zip container of one entry.  The bytes of a payload fill the listed files in order.
-/

namespace GameArchive
namespace Omod

structure Package where
  archive : String
  container : Zip.Container
  config : Config
  deriving Repr, DecidableEq

/-- The failure that a fault of a zip container amounts to. -/
def zipFailure (archive : String) : Zip.Fault → ExtractError
  | .malformed => .invalidFormat archive .malformedZip
  | .unsupported => .invalidFormat archive .unsupportedZip
  | .locked => .invalidFormat archive .lockedZipEntry
  | .shortField => .io archive .codec
  | .outOfReach => .io archive .system

def configName : String := "config"

def configFailure (archive : String) (delivery : Delivery) (cause : IoError) : ExtractError :=
  match cause with
  | .unknownCompression _ => .unsupportedCompression archive cause.message
  | .shortRead => .invalidFormat archive (.malformedConfiguration delivery.shortfall)
  | _ => .invalidFormat archive (.malformedConfiguration cause)

def Package.open (source : Source) : Except ExtractError Package := do
  let archive := source.name
  let container ← (Zip.Container.ofBytes source.bytes).mapError (zipFailure archive)
  match container.entryNamed? configName with
  | none => .error (.invalidFormat archive .missingConfiguration)
  | some entry => do
      let delivery ← (container.deliver entry).mapError (zipFailure archive)
      let (config, _) ← (Config.read delivery.steady).mapError (configFailure archive delivery)
      pure { archive, container, config }

/-- A file list with the payload that belongs to it. -/
inductive Part where
  | data
  | plugins
  deriving Repr, DecidableEq

def Part.listName : Part → String
  | data => "data.crc"
  | plugins => "plugins.crc"

def Part.payloadName : Part → String
  | data => "data"
  | plugins => "plugins"

namespace Package

def hasPlugins (package : Package) : Bool :=
  (package.container.entryNamed? Part.plugins.listName).isSome

/-- What an entry is read as. -/
def deliver (package : Package) (name : String) : Except ExtractError Delivery :=
  match package.container.entryNamed? name with
  | none => .error (.invalidFormat package.archive .missingZipEntry)
  | some entry => (package.container.deliver entry).mapError (zipFailure package.archive)

def whole (package : Package) (delivery : Delivery) : Except ExtractError Bytes :=
  match delivery.all? with
  | some bytes => .ok bytes
  | none => .error (.io package.archive .codec)

def fileList (package : Package) (part : Part) : Except ExtractError (List ListedFile) := do
  let delivery ← package.deliver part.listName
  let bytes ← package.whole delivery
  (readFileList bytes).mapError fun cause =>
    .invalidFormat package.archive (.malformedFileList part.listName cause)

/-- The bytes that a payload gives, and the failure after them, if there is one.  A payload that
ends early is no failure here, because missing bytes show in the files. -/
structure Payload where
  bytes : Bytes
  failure : Option IoError
  deriving Repr, DecidableEq

def Payload.ofDelivery (delivery : Delivery) : Payload where
  bytes := delivery.copied
  failure :=
    match delivery.ending with
    | .finished | .cutOff => none
    | .rejected | .broken _ => some .codec

/-- The payload in an LZMA stream with `total` bytes of output.  Once the stream has begun, it
does not matter how its input ends. -/
def lzmaPayload (package : Package) (total : Nat) (delivery : Delivery) :
    Except ExtractError Payload :=
  let invalid := fun (fault : FormatFault) => ExtractError.invalidFormat package.archive fault
  match delivery.steady.split? Lzma.propertiesLength with
  | none => .error (invalid .missingLzmaProperties)
  | some (properties, stream) =>
      match Lzma.Properties.ofBytes? properties with
      | none => .error (invalid .malformedLzmaHeader)
      | some properties =>
          match RangeDecoder.start properties.bitCount stream with
          | .begun decoder => .ok (.ofDelivery (Lzma.decode properties total decoder))
          | .malformed => .error (invalid .malformedLzmaHeader)
          | .short =>
              match delivery.shortfall with
              | .shortRead => .error (invalid .malformedLzmaHeader)
              | cause => .error (invalid (.unreadableLzmaHeader cause))

def zipPayload (package : Package) (bytes : Bytes) : Except ExtractError Payload := do
  let container ← (Zip.Container.ofBytes bytes).mapError (zipFailure package.archive)
  match container.firstEntry? with
  | none => .error (.invalidFormat package.archive .missingZipEntry)
  | some entry => do
      let delivery ← (container.deliver entry).mapError (zipFailure package.archive)
      pure (.ofDelivery delivery)

/-- The payload of a part, which is to have `total` bytes. -/
def payload (package : Package) (part : Part) (total : Nat) : Except ExtractError Payload := do
  let delivery ← package.deliver part.payloadName
  match package.config.compression with
  | .lzma => package.lzmaPayload total delivery
  | .zip => do
      let bytes ← package.whole delivery
      package.zipPayload bytes

def fill (writer : SparseWriter) (payload : Payload) :
    Except ExtractError (List WrittenFile) × SparseWriter :=
  match SparseWriter.writeAll payload.bytes writer with
  | .error failure writer => (.error (.io writer.archive failure), writer)
  | .ok _ writer =>
      match payload.failure with
      | some failure => (.error (.io writer.archive failure), writer)
      | none => writer.finish

/-- Writes the files of a part below a destination. -/
def extractPart (package : Package) (part : Part) (destination : Location) (tree : FileTree) :
    Except ExtractError (List WrittenFile) × FileTree :=
  let prepared := do
    let files ← package.fileList part
    let payload ← package.payload part (declaredLength files)
    pure (files, payload)
  match prepared with
  | .error failure => (.error failure, tree)
  | .ok (files, payload) =>
      let (outcome, writer) :=
        fill (SparseWriter.start package.archive destination files tree) payload
      (outcome, writer.tree)

/-- Writes the plugins below a destination; without plugins there is nothing to write. -/
def extractPlugins (package : Package) (destination : Location) (tree : FileTree) :
    Except ExtractError (List WrittenFile) × FileTree :=
  if package.hasPlugins then package.extractPart .plugins destination tree else (.ok [], tree)

end Package
end Omod
end GameArchive
