import GameArchive.Text.Lowercase
import GameArchive.Text.Blank

/-!
# Entry paths

Names of archive entries are paths whose components are separated by backslashes or slashes.
Four forms of a name are used:

* the *archive form*, with backslashes and without a leading one, is the key of an entry;
* the *lookup key*, lower-case with slashes and without slashes at either end, decides whether
  two names mean the same entry;
* the *native form*, with slashes, is appended to a destination directory;
* the split into *parent* and *leaf* stands at the last separator of either kind.

`isSafe` tells which names may be written below a destination: it refuses rooted and
drive-qualified names, steps to a parent, names that begin or end with a dot, and characters
that some file systems refuse.
-/

namespace GameArchive
namespace Path

def isSeparator (character : Char) : Bool :=
  character == '\\' || character == '/'

/-- Every occurrence of one character replaced by another. -/
def replace (old new : Char) (path : List Char) : List Char :=
  path.map fun character => if character = old then new else character

/-- A path with slashes in place of backslashes. -/
def toNative (path : String) : String :=
  String.ofList (replace '\\' '/' path.toList)

/-- A path with backslashes, none of them leading. -/
def toArchive (path : String) : String :=
  String.ofList ((replace '/' '\\' path.toList).dropWhile (· == '\\'))

/-- The form in which two names of the same entry agree. -/
def lookupKey (path : String) : String :=
  String.ofList
    (Blank.stripEnds (· == '/') (replace '\\' '/' (Lowercase.characters path.toList)))

/-- The parts of a path before and after its last separator, if it has one. -/
def splitLast? : List Char → Option (List Char × List Char)
  | [] => none
  | character :: rest =>
      match splitLast? rest with
      | some (front, back) => some (character :: front, back)
      | none => if isSeparator character then some ([], rest) else none

/-- What stands before the last separator. -/
def parent? (path : String) : Option String :=
  (splitLast? path.toList).map fun (front, _) => String.ofList front

/-- What stands after the last separator, or the whole path. -/
def leafCharacters (path : List Char) : List Char :=
  match splitLast? path with
  | some (_, back) => back
  | none => path

def leaf (path : String) : String :=
  String.ofList (leafCharacters path.toList)

/-- What stands after the last full stop, if there is one. -/
def afterLastStop? : List Char → Option (List Char)
  | [] => none
  | character :: rest =>
      match afterLastStop? rest with
      | some back => some back
      | none => if character = '.' then some rest else none

/-- What stands after the last full stop of the last component. -/
def extension? (path : String) : Option String :=
  (afterLastStop? (leafCharacters path.toList)).map String.ofList

/-- Whether a path has the given extension, the case of ASCII letters aside. -/
def hasExtension (path extension : String) : Bool :=
  match extension? path with
  | some found => found.toList.map Char.toLower == extension.toList.map Char.toLower
  | none => false

def splitAt (separator : Char) : List Char → List (List Char)
  | [] => [[]]
  | character :: rest =>
      if character = separator then
        [] :: splitAt separator rest
      else
        match splitAt separator rest with
        | [] => [[character]]
        | component :: components => (character :: component) :: components

def split (path : List Char) : List (List Char) :=
  splitAt '/' path

/-- The path that a native path means when it is read from the directory `base`.  A rooted path
means itself. -/
def resolve (base path : List Char) : List Char :=
  match path with
  | '/' :: _ => path
  | _ =>
      match base.getLast? with
      | none => path
      | some '/' => base ++ path
      | some _ => base ++ '/' :: path

/-- The native path of an entry below the directory `base`. -/
def join (base path : String) : String :=
  String.ofList (resolve base.toList (toNative path).toList)

/-- Characters that no component may hold. -/
def isForbidden (character : Char) : Bool :=
  character == '"' || character == '<' || character == '>' || character == '|' ||
    character.toNat < 0x20

/-- Characters with which the last component may neither begin nor end. -/
def isForbiddenAtEdge (character : Char) : Bool :=
  isForbidden character || character == ':' || character == '*' || character == '?' ||
    isSeparator character

/-- Whether a step to the parent directory stands between two backslashes. -/
def hasParentStep : List Char → Bool
  | [] => false
  | '\\' :: '.' :: '.' :: '\\' :: _ => true
  | _ :: rest => hasParentStep rest

def hasDrive : List Char → Bool
  | letter :: ':' :: _ => letter.toNat < 0x80
  | _ => false

/-- Whether the last component begins and ends with characters that it may begin and end with. -/
def hasSafeEdges (component : List Char) : Bool :=
  match component.head?, component.getLast? with
  | some first, some last => !isForbiddenAtEdge first && !isForbiddenAtEdge last
  | _, _ => false

/-- Whether a path with backslashes only can be written below a destination. -/
def isSafeWindows (path : List Char) : Bool :=
  !path.isEmpty && !path.any isForbidden && path.head? != some '\\' && !hasDrive path &&
    path.head? != some '.' && path.getLast? != some '.' && !hasParentStep path &&
    hasSafeEdges (leafCharacters path)

/-- Whether an entry name can be written below a destination. -/
def isSafe (path : String) : Bool :=
  isSafeWindows (replace '/' '\\' path.toList)

end Path
end GameArchive
