import GameArchive.FileTree
import GameArchive.Reading

/-!
# Origins of archives

An archive is extracted from memory or from a file.  Its name is what messages call it and what
its extension is taken from; that of a file is the last name of its path.
-/

namespace GameArchive

/-- Where an archive is. -/
inductive Origin where
  /-- In memory, last changed at the second `modified`. -/
  | memory (source : Source) (modified : Nat)
  | file (path : String)
  deriving Repr, DecidableEq

namespace Origin

/-- The last name of a path, or the whole path when it ends in a step to a directory. -/
def fileName (path : String) : String :=
  let names := (Path.split path.toList).map String.ofList
  match (names.filter fun name => name ≠ "" ∧ name ≠ ".").getLast? with
  | none | some ".." => path
  | some name => name

def name : Origin → String
  | memory source _ => source.name
  | file path => fileName path

/-- The second of the last change.  Files in a tree have no times and count from the start. -/
def modified : Origin → Nat
  | memory _ modified => modified
  | file _ => 0

/-- The archive, read from the files as seen from a working directory. -/
def load (origin : Origin) (tree : FileTree) (base : Location) : Except IoError Source :=
  match origin with
  | memory source _ => .ok source
  | file path => (tree.readPath base path).map fun bytes => ⟨fileName path, bytes⟩

end Origin
end GameArchive
