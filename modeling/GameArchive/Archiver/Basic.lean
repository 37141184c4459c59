import GameArchive.Archiver.Output
import GameArchive.FileTree

/-!
# Running an archiver

An archiver is known by what its runs do: they change files, print lines, and end with an exit
code.  A program of the machine becomes an archiver by having its output cut into lines.
-/

namespace GameArchive
namespace Archiver

/-- What a run of an archiver leaves. -/
structure Run where
  tree : FileTree
  lines : List String
  /-- The exit code, or why there is none. -/
  outcome : Except IoError Int
  isCancelled : Bool

/-- What the run of a program leaves. -/
structure ProgramRun where
  tree : FileTree
  output : List Bytes
  /-- The exit code, unless a signal ended the program. -/
  exitCode? : Option Int

/-- How a machine runs the program at a path with some arguments. -/
abbrev Launch := String → List String → FileTree → Except IoError ProgramRun

/-- The exit code of a program that a signal ended. -/
def signalCode : Int := -1

def runProgram (launch : Launch) (program : String) (arguments : List String)
    (tree : FileTree) : Run :=
  match launch program arguments tree with
  | .error failure => ⟨tree, [], .error failure, false⟩
  | .ok run => ⟨run.tree, lines run.output, .ok (run.exitCode?.getD signalCode), false⟩

end Archiver

/-- What a run with some arguments does to some files. -/
abbrev Archiver := List String → FileTree → Archiver.Run

end GameArchive
