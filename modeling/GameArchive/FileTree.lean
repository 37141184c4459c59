import GameArchive.Error
import GameArchive.Path

/-!
# File trees

A tree of directories and files, as far as programs that create, write, move and list files can
tell.  A location is the list of names from the root; paths are resolved to locations by their
text alone.  An operation that fails may have created some of the directories that it needed.
-/

namespace GameArchive

/-- The names from the root to a file or directory. -/
abbrev Location := List String

namespace Location

/-- The location that some names lead to from a base.  Empty names and single full stops stay
where they are, and a double full stop leads back to the parent. -/
def follow (base : Location) : List String → Location
  | [] => base
  | name :: names =>
      if name = "" ∨ name = "." then follow base names
      else if name = ".." then follow base.dropLast names
      else follow (base ++ [name]) names

def resolve (base : Location) (path : String) : Location :=
  let names := (Path.split path.toList).map String.ofList
  match path.toList with
  | '/' :: _ => follow [] names
  | _ => follow base names

def path (location : Location) : String :=
  "/" ++ "/".intercalate location

end Location

inductive FileNode where
  | directory
  | file (contents : Bytes) (isExecutable : Bool)
  deriving Repr, DecidableEq

/-- A tree of files; the root is always a directory. -/
structure FileTree where
  nodes : List (Location × FileNode)
  deriving Repr, DecidableEq

namespace FileTree

def empty : FileTree := ⟨[]⟩

def node? (tree : FileTree) (location : Location) : Option FileNode :=
  if location = [] then some .directory else tree.nodes.lookup location

def isDirectory (tree : FileTree) (location : Location) : Bool :=
  tree.node? location == some .directory

def contains (tree : FileTree) (location : Location) : Bool :=
  (tree.node? location).isSome

def contents? (tree : FileTree) (location : Location) : Option Bytes :=
  match tree.node? location with
  | some (.file contents _) => some contents
  | _ => none

/-- Whether the file at a location is a program. -/
def isExecutable (tree : FileTree) (location : Location) : Bool :=
  match tree.node? location with
  | some (.file _ isExecutable) => isExecutable
  | _ => false

def erase (tree : FileTree) (location : Location) : FileTree :=
  ⟨tree.nodes.filter fun (found, _) => found ≠ location⟩

def insert (tree : FileTree) (location : Location) (node : FileNode) : FileTree :=
  ⟨(tree.erase location).nodes ++ [(location, node)]⟩

/-- Puts a node at the location that some names lead to from a directory, and directories at the
free locations above it. -/
def placeFrom (tree : FileTree) (base : Location) (node : FileNode) : List String → FileTree
  | [] => tree
  | [name] => tree.insert (base ++ [name]) node
  | name :: names =>
      let location := base ++ [name]
      let tree := if tree.contains location then tree else tree.insert location .directory
      placeFrom tree location node names

/-- Puts a node at a location, and directories at the free locations above it. -/
def place (tree : FileTree) (location : Location) (node : FileNode) : FileTree :=
  tree.placeFrom [] node location

def maximumNameLength : Nat := 255

def maximumPathLength : Nat := 4095

def isUsableName (name : String) : Bool :=
  name.utf8ByteSize ≤ maximumNameLength && !name.toList.contains '\x00'

/-- The location that some names lead to from a location.  Every name has to be looked up in a
directory, but nothing has to stand at the last one. -/
def walk? (tree : FileTree) (base : Location) : List String → Option Location
  | [] => some base
  | name :: names =>
      if tree.isDirectory base then
        if name = "" ∨ name = "." then tree.walk? base names
        else if name = ".." then tree.walk? base.dropLast names
        else tree.walk? (base ++ [name]) names
      else
        none

/-- The directory from which the names of a path are read, and the names. -/
def pathNames (base : Location) (path : String) : Location × List String :=
  let names := (Path.split path.toList).map String.ofList
  match path.toList with
  | '/' :: _ => ([], names)
  | _ => (base, names)

/-- The location that a path leads to from a working directory. -/
def locate? (tree : FileTree) (base : Location) (path : String) : Option Location :=
  if path = "" then
    none
  else
    let (base, names) := pathNames base path
    tree.walk? base names

def nodeAt? (tree : FileTree) (base : Location) (path : String) : Option FileNode :=
  (tree.locate? base path).bind tree.node?

/-- Creates the directories that some names lead to from a directory, as far as they do not
exist, and gives the location of the last one. -/
def createDirectoriesFrom (base : Location) : List String → EStateM IoError FileTree Location
  | [] => pure base
  | name :: names => do
      if name = "" ∨ name = "." then
        createDirectoriesFrom base names
      else if name = ".." then
        createDirectoriesFrom base.dropLast names
      else
        let tree ← get
        let location := base ++ [name]
        match tree.node? location with
        | some .directory => createDirectoriesFrom location names
        | some (.file ..) => throw .system
        | none =>
            if isUsableName name then do
              set (tree.insert location .directory)
              createDirectoriesFrom location names
            else
              throw .system

def createDirectories (location : Location) : EStateM IoError FileTree Unit :=
  discard (createDirectoriesFrom [] location)

def admitsFile (tree : FileTree) (location : Location) : Bool :=
  match location.getLast? with
  | none => false
  | some name =>
      isUsableName name && location.path.utf8ByteSize ≤ maximumPathLength &&
        tree.isDirectory location.dropLast && !tree.isDirectory location

/-- Creates a file with the given contents in an existing directory, or replaces one. -/
def writeFile (location : Location) (contents : Bytes) : EStateM IoError FileTree Unit := do
  let tree ← get
  if tree.admitsFile location then
    set (tree.insert location (.file contents (tree.isExecutable location)))
  else
    throw .system

def append (tree : FileTree) (location : Location) (bytes : Bytes) : FileTree :=
  match tree.node? location with
  | some (.file contents isExecutable) =>
      tree.insert location (.file (contents ++ bytes) isExecutable)
  | _ => tree

def readFile (tree : FileTree) (location : Location) : Except IoError Bytes :=
  match tree.contents? location with
  | some contents => .ok contents
  | none => .error .system

def readPath (tree : FileTree) (base : Location) (path : String) : Except IoError Bytes :=
  match tree.locate? base path with
  | some location => tree.readFile location
  | none => .error .system

/-- The location of a directory at a path, after it is created with all directories above it. -/
def prepareDirectory (base : Location) (path : String) : EStateM IoError FileTree Location :=
  let (base, names) := pathNames base path
  createDirectoriesFrom base names

/-- The location of a file at a path, after all directories above it are created. -/
def prepareFile (base : Location) (path : String) : EStateM IoError FileTree Location := do
  let (base, names) := pathNames base path
  let location ← createDirectoriesFrom base names.dropLast
  match names.getLast? with
  | none | some "" | some "." | some ".." => throw .system
  | some name => pure (location ++ [name])

/-- Moves a file into an existing directory, in the place of a file that stands there. -/
def moveFile (origin target : Location) : EStateM IoError FileTree Unit := do
  let tree ← get
  match tree.node? origin with
  | some (.file contents isExecutable) =>
      if tree.admitsFile target then
        set ((tree.erase origin).insert target (.file contents isExecutable))
      else
        throw .system
  | _ => throw .system

/-- The names that lead from one location to another below it. -/
def relative? : (base location : Location) → Option (List String)
  | [], names => some names
  | _, [] => none
  | name :: base, first :: location =>
      if name = first then relative? base location else none

/-- Whether one list of names comes before another or equals it, name by name. -/
def precedes : List String → List String → Bool
  | [], _ => true
  | _ :: _, [] => false
  | first :: firsts, second :: seconds =>
      if first = second then precedes firsts seconds else decide (first < second)

/-- The files below a directory with the names that lead to them, in the order of these names. -/
def filesBelow (tree : FileTree) (base : Location) : List (List String × Bytes) :=
  let files := tree.nodes.filterMap fun (location, node) =>
    match node with
    | .directory => none
    | .file contents _ => (relative? base location).map fun names => (names, contents)
  files.mergeSort fun first second => precedes first.1 second.1

/-- The files below a directory with their paths from it, in the order of these paths. -/
def pathsBelow (tree : FileTree) (base : Location) : List (String × Bytes) :=
  let files := (tree.filesBelow base).map fun (names, contents) =>
    ("/".intercalate names, contents)
  files.mergeSort fun first second => decide (first.1 ≤ second.1)

def eraseBelow (tree : FileTree) (base : Location) : FileTree :=
  ⟨tree.nodes.filter fun (location, _) => (relative? base location).isNone⟩

end FileTree
end GameArchive
