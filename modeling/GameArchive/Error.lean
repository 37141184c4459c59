import GameArchive.Text.Hexadecimal
import GameArchive.Text.Quoted
import GameArchive.Text.Utf8

/-!
# Failures

Every failure names its cause.  `IoError` holds the failures of reading, writing and decoding,
`FormatFault` the ways in which an archive or a request for one is malformed, and `ExtractError`
what an operation on an archive reports, with the name of the archive and, where one is known,
of the entry.  The wording of all messages is in the `message` functions.
-/

namespace GameArchive

inductive IoKind where
  | system
  | codec
  | seek
  | invalidData
  | invalidInput
  | unexpectedEnd
  | notFound
  | other
  deriving Repr, DecidableEq

inductive IoError where
  /-- The operating system refused the operation. -/
  | system
  | codec
  | corruptStream
  | incompleteStream
  | wrongChecksum
  /-- A stream was asked for a position before its start or beyond its greatest one. -/
  | seekOutOfRange
  /-- A window was asked for a position before its start. -/
  | seekBeforeWindow
  /-- A field of fixed size was not there in full. -/
  | shortRead
  /-- A name does not fit the length byte before it. -/
  | longName (limit : Nat)
  /-- The name of a record does not fit the length word before it. -/
  | longRecordName (name : String)
  /-- The source of a record holds fewer bytes than promised. -/
  | shortRecord (name : String) (expected found : Nat)
  /-- The declared size of a packed block is beyond what its bytes can hold. -/
  | oversizedBlock (declared packed : Nat)
  /-- The length of a string needs more bytes than a length may have. -/
  | longStringLength
  | unknownCompression (number : Nat)
  | negativeLength (name : String)
  | malformedText (fault : Utf8.Fault)
  | surplusData (archive : String)
  /-- The archiver that the settings name does not exist. -/
  | missingArchiver (path : String)
  | noArchiver
  /-- A failure outside of this library, in its own words. -/
  | external (message : String)
  deriving Repr, DecidableEq

namespace IoError

def kind : IoError → IoKind
  | system => .system
  | codec | corruptStream | incompleteStream | wrongChecksum => .codec
  | seekOutOfRange => .seek
  | seekBeforeWindow | longName _ | longRecordName _ => .invalidInput
  | shortRead | shortRecord .. => .unexpectedEnd
  | oversizedBlock .. | longStringLength | unknownCompression _ | negativeLength _
  | malformedText _ | surplusData _ => .invalidData
  | missingArchiver _ | noArchiver => .notFound
  | external _ => .other

def message : IoError → String
  | system => "the operating system refused the operation"
  | codec => "corrupt compressed data"
  | corruptStream => "corrupt deflate stream"
  | incompleteStream => "incomplete deflate stream"
  | wrongChecksum => "Invalid checksum"
  | seekOutOfRange => "invalid seek to a negative or overflowing position"
  | seekBeforeWindow => "seek before start of slice"
  | shortRead => "failed to fill whole buffer"
  | longName limit => s!"name longer than {limit} bytes"
  | longRecordName name => s!"name too long: {name}"
  | shortRecord name expected found => s!"{name}: expected {expected} bytes, got {found}"
  | oversizedBlock declared packed =>
      s!"declared size {declared} is too large for {packed} packed bytes"
  | longStringLength => "string length overflows"
  | unknownCompression number => s!"unknown compression type {number}"
  | negativeLength name => s!"negative length for {name}"
  | malformedText fault => fault.message
  | surplusData archive => s!"{archive}: data runs past the declared files"
  | missingArchiver path => s!"configured 7z binary not found: {path}"
  | noArchiver =>
      "7z binary not found. Please install p7zip or place 7zz in the bin/ directory."
  | external message => message

end IoError

/-- A way in which an archive, or a request to build one, is malformed. -/
inductive FormatFault where
  | truncatedHeader
  | wrongMagic (container : String)
  | unknownBsaVersion (version : Nat)
  | unknownTes3Version (version : Nat)
  | unknownBa2Version (version : Nat)
  /-- A BA2 holds textures in chunks. -/
  | textureArchive (kind : String)
  | unknownEntryType (kind : String)
  | entryBeyondEnd (path : String)
  | nameTableBeyondEnd
  | truncatedFolderName
  /-- The size of an entry has no room for the sizes before its data. -/
  | smallSizeField (path : String)
  /-- The name before the data of an entry is longer than the entry. -/
  | oversizedNameBlob (path : String)
  /-- The hash table begins before the tables in front of it end. -/
  | overlappingHashTable
  /-- The name of a file begins outside of the name block. -/
  | nameOffsetOutOfRange (offset : Nat)
  /-- The container is of another family. -/
  | notBethesda (kind : String)
  /-- The container is not known. -/
  | unknownFormat (name : String)
  | mismatchedState
  /-- A BSA was to be built with another magic number. -/
  | unbuildableMagic (magic : String)
  /-- The archive needs an offset beyond 32 bits. -/
  | oversizedBsa
  /-- An entry needs a size beyond 30 bits. -/
  | oversizedBsaEntry (path : String)
  /-- A BA2 was to be built with another magic number. -/
  | unknownHeaderType (magic : String)
  /-- A BA2 was to be built with another entry type. -/
  | unbuildableKind (kind : String)
  /-- A path does not fit the length word before it. -/
  | longPath (path : String)
  | oversizedBa2Entry
  | notBtar
  | unknownBtarMajor
  | unknownBtarMinor
  | malformedRecordName (position : Nat)
  | missingConfiguration
  /-- The configuration of a package cannot be read. -/
  | malformedConfiguration (cause : IoError)
  | malformedFileList (list : String) (cause : IoError)
  /-- A payload is too short for the properties of its compression. -/
  | missingLzmaProperties
  /-- A payload begins with properties or a range code that cannot be. -/
  | malformedLzmaHeader
  /-- The range code at the start of a payload cannot be read. -/
  | unreadableLzmaHeader (cause : IoError)
  | malformedZip
  /-- A zip container uses a feature that is not supported. -/
  | unsupportedZip
  | lockedZipEntry
  | missingZipEntry
  /-- A fault in the words of whoever found it. -/
  | described (reason : String)
  deriving Repr, DecidableEq

namespace FormatFault

def message : FormatFault → String
  | truncatedHeader => "truncated header"
  | wrongMagic container => s!"Archive is not a {container}"
  | unknownBsaVersion version => s!"Unknown BSA version 0x{Hexadecimal.render version}"
  | unknownTes3Version version => s!"Unknown TES3 version 0x{Hexadecimal.render version}"
  | unknownBa2Version version => s!"Unknown BA2 version {version}"
  | textureArchive kind => s!"{kind} texture archives are not supported"
  | unknownEntryType kind => s!"Can't parse entry types of {kind}"
  | entryBeyondEnd path => s!"{path} points past the end of the archive"
  | nameTableBeyondEnd => "name table points past the end of the archive"
  | truncatedFolderName => "folder name block is truncated"
  | smallSizeField path => s!"{path}: size field too small"
  | oversizedNameBlob path => s!"{path}: name blob larger than entry"
  | overlappingHashTable => "hash table overlaps the file table"
  | nameOffsetOutOfRange offset => s!"name offset {offset} out of range"
  | notBethesda kind => s!"{kind} is not a Bethesda archive"
  | unknownFormat name => s!"Invalid file format {name}"
  | mismatchedState => "file state does not match the archive layout"
  | unbuildableMagic magic => s!"cannot build a BSA with magic {Quoted.quote magic}"
  | oversizedBsa => "archive exceeds the 4 GiB BSA limit"
  | oversizedBsaEntry path => s!"{path} is too large for a BSA entry"
  | unknownHeaderType magic => s!"Unknown header type: {magic}"
  | unbuildableKind kind => s!"{kind} archives cannot be built"
  | longPath path => s!"path too long: {path}"
  | oversizedBa2Entry => "entry exceeds the 4 GiB BA2 limit"
  | notBtar => "Not a valid BTAR file"
  | unknownBtarMajor => "Invalid BTAR major version, should be 1"
  | unknownBtarMinor => "Invalid BTAR minor version"
  | malformedRecordName position => s!"record name at {position} is not UTF-8"
  | missingConfiguration => "Could not find the configuration data"
  | malformedConfiguration cause => s!"bad config: {cause.message}"
  | malformedFileList list cause => s!"{list}: {cause.message}"
  | missingLzmaProperties => "LZMA properties missing"
  | malformedLzmaHeader => "bad LZMA header"
  | unreadableLzmaHeader cause => cause.message
  | malformedZip => "invalid Zip archive"
  | unsupportedZip => "unsupported Zip archive"
  | lockedZipEntry => "provided password is incorrect"
  | missingZipEntry => "specified file not found in archive"
  | described reason => reason

end FormatFault

inductive ExtractError where
  | invalidFormat (archive : String) (fault : FormatFault)
  | unsupportedCompression (archive kind : String)
  /-- The number of results is not the number of requested entries. -/
  | sanityCheck (archive : String) (found expected : Nat)
  /-- A payload ended before all files that it should fill. -/
  | omodUnderrun (archive entry : String)
  | archiverFailed (archive : String) (code : Int)
  /-- Fewer bytes were there than were asked for. -/
  | truncated (archive : String) (entry : Option String) (expected actual : Nat)
  | duplicateEntry (archive entry : String)
  | cancelled (archive : String)
  | projection (archive entry : String) (cause : ExtractError)
  | projectionIo (archive entry : String) (cause : IoError)
  /-- The projection of an entry failed with messages of its own, outermost first. -/
  | projectionMessage (archive entry : String) (chain : List String)
  | io (archive : String) (cause : IoError)
  deriving Repr, DecidableEq

namespace ExtractError

def archive : ExtractError → String
  | invalidFormat archive _ | unsupportedCompression archive _ | sanityCheck archive _ _
  | omodUnderrun archive _ | archiverFailed archive _ | truncated archive _ _ _
  | duplicateEntry archive _ | cancelled archive | projection archive _ _
  | projectionIo archive _ _ | projectionMessage archive _ _ | io archive _ => archive

def entrySuffix : Option String → String
  | some entry => s!" ({entry})"
  | none => ""

def message : ExtractError → String
  | invalidFormat archive fault => s!"{archive}: {fault.message}"
  | unsupportedCompression archive kind => s!"{archive}: unsupported compression {kind}"
  | sanityCheck archive found expected =>
      s!"Sanity check error extracting {archive} - {found} results, expected {expected}"
  | omodUnderrun archive entry =>
      archive ++ ": Compressed data file stream didn't contain enough information to fill all " ++
        "files (stopped at " ++ entry ++ ")"
  | archiverFailed archive code => s!"{archive}: archiver exited with code {code}"
  | truncated archive entry expected actual =>
      s!"{archive}{entrySuffix entry}: expected {expected} bytes, got {actual}"
  | duplicateEntry archive entry => s!"{archive}: duplicate entry {entry}"
  | cancelled archive => s!"{archive}: extraction cancelled"
  | projection archive entry cause =>
      s!"{archive}: projection failed for {entry}: {cause.message}"
  | projectionIo archive entry cause =>
      s!"{archive}: projection failed for {entry}: {cause.message}"
  | projectionMessage archive entry chain =>
      let cause := ": ".intercalate chain
      s!"{archive}: projection failed for {entry}: {cause}"
  | io archive cause => s!"{archive}: {cause.message}"

/-- An action that reads or writes on behalf of an archive. -/
def onBehalfOf {σ α : Type} (archive : String) (action : EStateM IoError σ α) :
    EStateM ExtractError σ α := fun state =>
  match action state with
  | .ok value state => .ok value state
  | .error failure state => .error (.io archive failure) state

end ExtractError
end GameArchive
