import GameArchive.Archiver.Basic
import GameArchive.Archiver.Progress
import GameArchive.Archiver.Request
import GameArchive.Extraction.Origin
import GameArchive.Extraction.Session
import GameArchive.Extraction.Strategy
import GameArchive.Omod.Package

/-!
# Gathering projected entries

An extraction takes a slot, comes to the entries of the archive one after the other, asks for
each whether it is wanted, and gathers what the projection makes of the wanted ones under their
paths.  It stops at the first failure and at the first entry that it comes to after the request
has been cancelled.

Only the external archiver unpacks everything first; then every unpacked file is visited, and the
first failure among the visits is reported when all are done.

When entries are named that have to be there, the number of results has to be theirs.
-/

namespace GameArchive

structure Extractor where
  workingDirectory : Location
  temporaryDirectory : String
  findArchiver : FileTree → Except IoError Archiver

/-- Values under the paths of entries. -/
abbrev Results (α : Type) := List (String × α)

namespace Results

/-- Puts a value under a path, in the place of one that is there. -/
def insert {α : Type} (results : Results α) (path : String) (value : α) : Results α :=
  results.filter (fun (found, _) => found ≠ path) ++ [(path, value)]

end Results

namespace Extraction

structure Offer where
  entry : Entry
  /-- The bytes that are reported when the entry is done, determined before it is projected. -/
  size : Except ExtractError Nat

def ofExcept {α : Type} : Except ExtractError α → Extraction α
  | .ok value => pure value
  | .error failure => throw failure

/-- Gathers the wanted ones among the offered entries. -/
def gather {α : Type} (request : Request α) (archive : String) (results : Results α) :
    List Offer → Extraction (Results α)
  | [] => pure results
  | offer :: offers => do
      checkCancelled archive
      let path := offer.entry.path
      if ← ask request path then
        let size ← ofExcept offer.size
        let value ← project request archive offer.entry
        report (UInt64.ofNat size)
        gather request archive (results.insert path value) offers
      else
        gather request archive results offers

def offerOfFile (modified : Nat) (file : Bethesda.File) : Offer where
  entry := .bethesda file modified
  size := file.size

def fromBethesda {α : Type} (request : Request α) (kind : ContainerKind) (source : Source)
    (modified : Nat) : Extraction (Results α) :=
  withSlot source.name do
    let archive ← ofExcept (Bethesda.Archive.openAs kind source)
    let files ← ofExcept archive.files
    gather request source.name [] (files.map (offerOfFile modified))

def offerOfRecord (source : Source) (modified : Nat) (record : Btar.Record) : Offer where
  entry := .btar source record modified
  size := .ok record.length

/-- Extracts a BTAR.  Records are read as the extraction comes to them, so that one that cannot
be read is met after all before it. -/
def fromBtar {α : Type} (request : Request α) (source : Source) (modified : Nat) :
    Extraction (Results α) :=
  withSlot source.name do
    let _ ← ofExcept (Btar.openHeader source)
    let listing := Btar.records source
    let offers := listing.records.map (offerOfRecord source modified)
    let results ← gather request source.name [] offers
    match listing.failure with
    | some failure => throw failure
    | none => pure results

def unpackDirectory (scratch : Location) : Location :=
  scratch ++ ["out"]

/-- A name that any file system takes, for an archive of some name. -/
def spoolName (archive : String) : String :=
  "spool-" ++ String.ofList (archive.toList.map fun character =>
    if character.isAlphanum || character == '.' || character == '-' || character == '_' then
      character
    else
      '_')

/-- The path of a file that holds the archive; an archive in memory is written to one. -/
def localPath (origin : Origin) (source : Source) (scratch : Location) : Extraction String :=
  match origin with
  | .file path => pure path
  | .memory .. => do
      let location := scratch ++ [spoolName source.name]
      onFiles source.name (FileTree.writeFile location source.bytes)
      pure location.path

def unpackPart (package : Omod.Package) (destination : Location)
    (extract : Omod.Package → Location → FileTree →
      Except ExtractError (List Omod.WrittenFile) × FileTree) :
    Extraction (List Omod.WrittenFile) := fun session =>
  let (outcome, tree) := extract package destination session.tree
  ofExcept outcome { session with tree }

/-- The offer of a file that was unpacked from a package.  Its bytes are reported with those of
the package. -/
def offerOfUnpacked (destination : Location) (file : Omod.WrittenFile) : Offer where
  entry := .native file.name (Location.resolve destination file.path)
  size := .ok 0

def fromPackage {α : Type} (extractor : Extractor) (request : Request α) (origin : Origin)
    (source : Source) : Extraction (Results α) :=
  withSlot source.name do
    withScratch source.name extractor.workingDirectory extractor.temporaryDirectory
      fun scratch => do
        let _ ← localPath origin source scratch
        let destination := unpackDirectory scratch
        let package ← ofExcept (Omod.Package.open source)
        let data ← unpackPart package destination (·.extractPart .data)
        let plugins ← unpackPart package destination Omod.Package.extractPlugins
        report (UInt64.ofNat source.bytes.length)
        gather request source.name [] ((data ++ plugins).map (offerOfUnpacked destination))

/-- Reports numbers of bytes one after the other. -/
def reportAll : List UInt64 → Extraction Unit
  | [] => pure ()
  | bytes :: others => do
      report bytes
      reportAll others

def listFileName : String := "modarc-list.lst"

def writeListFile (archive : String) (scratch : Location) (paths : List String) :
    Extraction String := do
  let location := scratch ++ [listFileName]
  onFiles archive (FileTree.writeFile location (Utf8.encode (Archiver.listFile paths)))
  pure location.path

/-- Runs the archiver, and reports what its output shows of its progress. -/
def runArchiver (archiver : Archiver) (archive : String) (total : Nat)
    (arguments : List String) : Extraction Int := do
  let run := archiver arguments (← get).tree
  modify fun session =>
    { session with tree := run.tree, isCancelled := session.isCancelled || run.isCancelled }
  reportAll ((Archiver.Tracker.start (UInt64.ofNat total)).deltas run.lines)
  match run.outcome with
  | .ok code => pure code
  | .error failure => throw (.io archive failure)

def unpackWith {α : Type} (archiver : Archiver) (request : Request α) (origin : Origin)
    (source : Source) (scratch : Location) : Extraction Unit := do
  let path ← localPath origin source scratch
  let list? ← match request.only? with
    | none => pure none
    | some only => do
        let list ← writeListFile source.name scratch only.eraseDups
        pure (some list)
  let arguments := Archiver.arguments path (unpackDirectory scratch).path list?
  let code ← runArchiver archiver source.name source.bytes.length arguments
  modify fun session => { session with tree := session.tree.erase (scratch ++ [listFileName]) }
  if code ≠ 0 then
    throw (.archiverFailed source.name code)

/-- Visits one unpacked file, and removes it when it has been projected. -/
def visit {α : Type} (request : Request α) (archive : String) (entry : Entry)
    (location : Location) : Extraction (Option (String × α)) := do
  checkCancelled archive
  if ← ask request entry.path then
    let value ← project request archive entry
    modify fun session => { session with tree := session.tree.erase location }
    pure (some (entry.path, value))
  else
    pure none

/-- Visits all unpacked files; gathers the results and the first failure. -/
def visitAll {α : Type} (request : Request α) (archive : String) (results : Results α)
    (failure? : Option ExtractError) :
    List (Entry × Location) → Session → EStateM.Result ExtractError Session (Results α)
  | [], session =>
      match failure? with
      | some failure => .error failure session
      | none => .ok results session
  | (entry, location) :: files, session =>
      match visit request archive entry location session with
      | .ok none session => visitAll request archive results failure? files session
      | .ok (some (path, value)) session =>
          visitAll request archive (results.insert path value) failure? files session
      | .error failure session =>
          visitAll request archive results (failure? <|> some failure) files session

/-- The files below a directory as entries, with their locations. -/
def unpackedFiles (tree : FileTree) (destination : Location) : List (Entry × Location) :=
  (tree.filesBelow destination).map fun (names, _) =>
    let location := destination ++ names
    (.native (Path.toArchive ("/".intercalate names)) location, location)

def fromArchiver {α : Type} (extractor : Extractor) (request : Request α) (origin : Origin)
    (source : Source) : Extraction (Results α) := do
  match extractor.findArchiver (← get).tree with
  | .error failure => throw (.io source.name failure)
  | .ok archiver =>
      withScratch source.name extractor.workingDirectory extractor.temporaryDirectory
        fun scratch => do
          let destination := unpackDirectory scratch
          onFiles source.name (FileTree.createDirectories destination)
          withSlot source.name (unpackWith archiver request origin source scratch)
          checkCancelled source.name
          let files := unpackedFiles (← get).tree destination
          visitAll request source.name [] none files

/-- Checks that there are as many results as entries that have to be there. -/
def checkCount {α : Type} (archive : String) (only? : Option (List String))
    (results : Results α) : Except ExtractError (Results α) :=
  match only? with
  | none => .ok results
  | some only =>
      let expected := only.eraseDups.length
      if results.length = expected then .ok results
      else .error (.sanityCheck archive results.length expected)

end Extraction

/-- Extracts an archive: gathers what the projection makes of its wanted entries. -/
def Extractor.extract {α : Type} (extractor : Extractor) (request : Request α)
    (origin : Origin) : Extraction (Results α) := do
  let archive := origin.name
  match origin.load (← get).tree extractor.workingDirectory with
  | .error failure => throw (.io archive failure)
  | .ok source =>
      let kind? := (ContainerKind.sniff (Stream.ofBytes source.bytes)).1
      let strategy ← Extraction.ofExcept (Strategy.select kind? archive)
      let results ← match strategy with
        | .bethesda kind => Extraction.fromBethesda request kind source origin.modified
        | .btar => Extraction.fromBtar request source origin.modified
        | .omod => Extraction.fromPackage extractor request origin source
        | .archiver => Extraction.fromArchiver extractor request origin source
      Extraction.ofExcept (Extraction.checkCount archive request.only? results)

end GameArchive
