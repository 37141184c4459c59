import GameArchive.CommandLine.Run

/-!
# The program

This module alone touches the machine.  It reads the files that an invocation may concern into a
file tree, carries out the command on that tree, and then makes the machine agree with the tree
that the command leaves.

The program starts no other programs.  A container that has to be left to the archiver is refused
as one whose archiver could not be started.
-/

namespace GameArchive
namespace Program

open CommandLine

def variableNames : List String :=
  ["MODARC_TEMP_DIR", "MODARC_7Z", "MODARC_MAX_JOBS", "XDG_CONFIG_HOME", "HOME", "PATH"]

/-- The directory for temporary files when the environment names none. -/
def usualTemporaryDirectory : String := "/tmp"

def assumedProcessors : Nat := 1

/-- Adds what stands at a location of the machine, with all that is below a directory. -/
partial def readBelow (tree : FileTree) (location : Location) : IO FileTree := do
  let place := (← IO.currentDir) / location.path
  if ← place.isDir then
    let entries ← place.readDir
    entries.toList.foldlM
      (fun tree entry => readBelow tree (location ++ [entry.fileName]))
      (tree.place location .directory)
  else if ← place.pathExists then
    let contents ← IO.FS.readBinFile place
    pure (tree.place location (.file contents.toList false))
  else
    pure tree

/-- Adds the directories above a location of the machine, and what stands there. -/
def readPath (base : Location) (tree : FileTree) (path : String) : IO FileTree := do
  let location := Location.resolve base path
  let lengths := List.range location.length
  let tree ← lengths.foldlM (fun tree length => do
      let above : Location := location.take length
      let place := (← IO.currentDir) / above.path
      if ← place.isDir then pure (tree.place above .directory) else pure tree) tree
  readBelow tree location

/-- Adds a program of the machine, whose contents do not count. -/
def readProgram (base : Location) (tree : FileTree) (path : String) : IO FileTree := do
  let location := Location.resolve base path
  let place := (← IO.currentDir) / location.path
  if ← place.pathExists then pure (tree.place location (.file [] true)) else pure tree

/-- The machine without its files. -/
def machine : IO Machine := do
  let environment ← variableNames.filterMapM fun name => do
    pure ((← IO.getEnv name).map fun value => (name, value))
  let temporary? ← IO.getEnv "TMPDIR"
  let program ← IO.appPath
  pure {
    tree := FileTree.empty
    workingDirectory := Location.resolve [] (← IO.currentDir).toString
    programDirectory? := some (Location.resolve [] program.toString).dropLast
    environment
    temporaryDirectory := temporary?.getD usualTemporaryDirectory
    processors := assumedProcessors
    launch := fun _ _ _ => .error .system }

def readFiles (machine : Machine) (invocation : Invocation) : IO FileTree := do
  let base := machine.workingDirectory
  let settings := invocation.config? <|> machine.defaultConfig?
  let tree ← (settings.toList ++ invocation.command.paths).foldlM (readPath base)
    FileTree.empty
  let settings := (machine.readSettings tree invocation.config?).toOption
  let directory := ((settings.bind Settings.temporaryDirectory?).getD
    machine.temporaryDirectory)
  let tree ← if ← ((← IO.currentDir) / directory).isDir then
    pure (tree.place (Location.resolve base directory) .directory)
  else
    pure tree
  let places := machine.places
  let programs :=
    (settings.bind Settings.archiver?).toList ++
      (places.programDirectory?.map fun directory =>
        Archiver.besideProgram.map (Path.join directory.path)).getD [] ++
      [Archiver.belowWorkingDirectory] ++
      places.searchPath.flatMap fun directory =>
        Archiver.programNames.map (Path.join directory)
  programs.foldlM (readProgram base) (tree.place base .directory)

/-- Makes the machine, which has the files of one tree, agree with another. -/
def writeChanges (before after : FileTree) : IO Unit := do
  after.nodes.forM fun (location, node) => do
    unless before.node? location = some node do
      match node with
      | .directory => IO.FS.createDirAll location.path
      | .file contents _ =>
          IO.FS.createDirAll (Location.path location.dropLast)
          IO.FS.writeBinFile location.path ⟨contents.toArray⟩
  before.nodes.forM fun (location, _) => do
    unless after.contains location do
      IO.FS.removeFile location.path

def run (arguments : List String) : IO UInt32 := do
  let machine ← machine
  let tree ← match parse arguments with
    | .ok invocation => readFiles machine invocation
    | .error _ => pure machine.tree
  let outcome := CommandLine.run { machine with tree } arguments
  writeChanges tree outcome.tree
  (← IO.getStdout).putStr outcome.output
  (← IO.getStderr).putStr outcome.errors
  pure (UInt32.ofNat outcome.exitCode)

end Program
end GameArchive

def main (arguments : List String) : IO UInt32 :=
  GameArchive.Program.run arguments
