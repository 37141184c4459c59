import GameArchive.Extraction.Gather

/-!
# Extraction into a directory

Every wanted entry is put below the destination at the path that its name tells.  Entries are
wanted when they are named, whatever the case and the separators of the names.  A name that may
not be written below a destination makes the extraction fail.
-/

namespace GameArchive
namespace Extraction

/-- Whether one of some names means an entry. -/
def isNamed (only? : Option (List String)) (path : String) : Bool :=
  match only? with
  | none => true
  | some only => (only.map Path.lookupKey).contains (Path.lookupKey path)

def placeBelow (workingDirectory : Location) (destination : String) : Projection Unit :=
  fun entry surroundings =>
    if Path.isSafe entry.path then
      match entry.moveTo workingDirectory (Path.join destination entry.path)
          surroundings.tree with
      | .ok _ tree => .ok () { surroundings with tree }
      | .error failure tree => .error (.extraction failure) { surroundings with tree }
    else
      .error (.messages ["refusing to write " ++ entry.path ++ " outside the destination"])
        surroundings

end Extraction

/-- Extracts all entries of an archive, or the named ones, below a destination; gives the number
of results. -/
def Extractor.extractTo (extractor : Extractor) (origin : Origin) (destination : String)
    (only? : Option (List String)) : Extraction Nat := do
  let request : Request Unit := {
    filter := Extraction.isNamed only?
    project := Extraction.placeBelow extractor.workingDirectory destination
    only? }
  let results ← extractor.extract request origin
  pure results.length

end GameArchive
