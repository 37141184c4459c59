import GameArchive.FileTree

/-!
# Search for the archiver

The archiver is the one that the settings name, or it is looked for beside the running program,
below the working directory, and last on the search path.  There, only files that can be run
count; elsewhere it is enough that something stands at the place.
-/

namespace GameArchive
namespace Archiver

structure Places where
  workingDirectory : Location
  programDirectory? : Option Location
  searchPath : List String
  deriving Repr, DecidableEq

def besideProgram : List String := ["bin/7zz", "bin/7z.exe", "7zz"]

def belowWorkingDirectory : String := "bin/7zz"

def programNames : List String := ["7zz", "7z"]

def isProgram (tree : FileTree) (base : Location) (path : String) : Bool :=
  match tree.locate? base path with
  | some location => tree.isExecutable location
  | none => false

/-- The path of an archiver when the settings name none. -/
def search? (places : Places) (tree : FileTree) : Option String :=
  let beside := match places.programDirectory? with
    | none => none
    | some directory =>
        (besideProgram.find? fun path => (tree.nodeAt? directory path).isSome).map fun path =>
          Path.join directory.path path
  let below :=
    if (tree.nodeAt? places.workingDirectory belowWorkingDirectory).isSome then
      some belowWorkingDirectory
    else
      none
  let onPath := (programNames.flatMap fun name =>
      places.searchPath.map fun directory => Path.join directory name).find?
    (isProgram tree places.workingDirectory)
  beside <|> below <|> onPath

def locate (places : Places) (configured? : Option String) (tree : FileTree) :
    Except IoError String :=
  match configured? with
  | some path =>
      if (tree.nodeAt? places.workingDirectory path).isSome then .ok path
      else .error (.missingArchiver path)
  | none =>
      match search? places tree with
      | some path => .ok path
      | none => .error .noArchiver

end Archiver
end GameArchive
