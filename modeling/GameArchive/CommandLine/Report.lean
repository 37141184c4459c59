import GameArchive.Bethesda.Builder
import GameArchive.Digest.Content
import GameArchive.Extraction.ToDirectory
import GameArchive.Json.Printer

/-!
# What the commands report

The listing of an archive shows content hash, size and path of each entry in the order of the
paths.  A rebuilt archive is verified against the first one: both have to hold the same paths
with the same content hashes.
-/

namespace GameArchive
namespace CommandLine

def hashContents : Projection ContentHash := fun entry surroundings =>
  match entry.handle surroundings.tree with
  | .ok handle => .ok (ContentHash.ofBytes handle.rest) surroundings
  | .error failure => .error (.extraction failure) surroundings

def hashRequest : Request ContentHash where
  filter := fun _ => true
  project := hashContents
  only? := none

def padLeft (width number : Nat) : String :=
  let digits := toString number
  String.ofList (List.replicate (width - digits.length) ' ') ++ digits

def sizeWidth : Nat := 12

def sortByPath {α : Type} (results : Results α) : Results α :=
  results.mergeSort fun first second => decide (first.1 ≤ second.1)

def listingLine (path : String) (hash : ContentHash) : String :=
  hash.hash ++ "  " ++ padLeft sizeWidth hash.size ++ "  " ++ path ++ "\n"

def listing (results : Results ContentHash) : String :=
  String.join ((sortByPath results).map fun (path, hash) => listingLine path hash)

def contentHashes : Results String → List Bethesda.File →
    Except ExtractError (Results String)
  | hashes, [] => .ok hashes
  | hashes, file :: files => do
      let contents ← file.contents
      contentHashes (hashes.insert file.path (ContentHash.text contents)) files

def archiveHashes (archive : Bethesda.Archive) : Except ExtractError (Results String) := do
  let files ← archive.files
  contentHashes [] files

inductive Discrepancy where
  | count (found expected : Nat)
  | contents (path : String)
  | missing (path : String)
  deriving Repr, DecidableEq

def Discrepancy.message : Discrepancy → String
  | count found expected => s!"Rebuilt archive has {found} files, expected {expected}"
  | contents path => s!"Content mismatch for {path}"
  | missing path => s!"Missing {path} after rebuild"

/-- The first difference between the hashes before and after, in the order of the paths. -/
def discrepancy? (before after : Results String) : Option Discrepancy :=
  if before.length ≠ after.length then
    some (.count after.length before.length)
  else
    (sortByPath before).findSome? fun (path, hash) =>
      match after.lookup path with
      | none => some (.missing path)
      | some other => if other = hash then none else some (.contents path)

end CommandLine
end GameArchive
